import Mathlib.Data.Nat.Bitwise
import Jukeboy.Base.Runs
import Jukeboy.Hid.Ulp

/-! # Button events

The ULP program stores the button state, counts the change and wakes the HID task; the
task reads the generation and the state, one after the other, and posts an event for each
button that differs from what it has seen. Every store, read and post is a step of its
own. -/
namespace Jukeboy.Hid.ButtonEvents
open Jukeboy.Base.Runs Jukeboy.Hid.Ulp

/-- `hid_button_t`. -/
inductive Button where
  | main1
  | main2
  | main3
  | misc1
  | misc2
  | misc3
deriving DecidableEq, Repr

/-- `hid_service_event_id_t`. -/
inductive EventId where
  | down
  | up
deriving DecidableEq, Repr

abbrev Event : Type := Button × EventId

/-- The buttons in the order of their numbers. -/
def buttons : List Button := [.main1, .main2, .main3, .misc1, .misc2, .misc3]

/-- `hid_service_button_mask`. -/
def buttonMask (b : Button) : UInt32 := 1 <<< UInt32.ofNat b.ctorIdx

/-- The events `hid_service_handle_button_update` collects. -/
def changedEvents (changedMask nextState : UInt32) : List Event :=
  buttons.filterMap fun b =>
    if changedMask &&& buttonMask b = 0 then none
    else some (b, if nextState &&& buttonMask b ≠ 0 then .down else .up)

/-! ## The system -/

/-- Where the ULP program is when a stable value has changed: behind the store of the
state, and behind the one of the generation. -/
inductive UlpPc where
  | idle
  | stored
  | counted
deriving DecidableEq, Repr

/-- Where `hid_service_task` is: waiting for a notification, at its two reads, at the
update with what it has read, posting. -/
inductive TaskPc where
  | waiting
  | readGeneration
  | readState (nextGeneration : UInt32)
  | update (nextGeneration nextState : UInt32)
  | post (events : List Event)
deriving DecidableEq, Repr

/-- `changes` counts the changes without end, `lastRead` and `previousRead` are what it was
at the last two reads of the generation. `handed` are the events handed to
`esp_event_post`, `posted` the ones it accepted, both the newest first. -/
structure System where
  bss : Bss
  ulp : UlpPc
  wakePending : Bool
  notified : Nat
  task : TaskPc
  buttonState : UInt32
  buttonGeneration : UInt32
  changes : Nat
  lastRead : Nat
  previousRead : Nat
  handed : List Event
  posted : List Event
deriving DecidableEq

inductive Action where
  | sample (s : Sample)
  | count
  | wake
  | isr
  | take
  | readGeneration
  | readState
  | update
  | post (accepted : Bool)
deriving DecidableEq, Repr

def init (threshold : UInt16) : System where
  bss := boot threshold
  ulp := .idle
  wakePending := false
  notified := 0
  task := .waiting
  buttonState := 0
  buttonGeneration := 0
  changes := 0
  lastRead := 0
  previousRead := 0
  handed := []
  posted := []

namespace System

variable (x : System)

/-- The ULP program up to the store of the state. -/
def sample (s : Sample) : System :=
  let (m, r2) := processLadders x.bss s
  { x with bss := storeState m, ulp := if r2 + 0 = 0 then .idle else .stored }

/-- `hid_service_handle_button_update` behind its reads, up to the posts. -/
def updated (nextGeneration nextState : UInt32) : System :=
  if nextGeneration = x.buttonGeneration then { x with task := .waiting }
  else
    { x with
      buttonState := nextState, buttonGeneration := nextGeneration
      task := .post (changedEvents (x.buttonState ^^^ nextState) nextState) }

end System

def step (x : System) : Action → Option System
  | .sample s => match x.ulp with
    | .idle => some (x.sample s)
    | _ => none
  | .count => match x.ulp with
    | .stored => some { x with bss := countChange x.bss, ulp := .counted, changes := x.changes + 1 }
    | _ => none
  | .wake => match x.ulp with
    | .counted => some { x with ulp := .idle, wakePending := true }
    | _ => none
  | .isr =>
    if x.wakePending then some { x with wakePending := false, notified := x.notified + 1 } else none
  | .take => match x.task with
    | .waiting =>
      if x.notified = 0 then none else some { x with notified := 0, task := .readGeneration }
    | _ => none
  | .readGeneration => match x.task with
    | .readGeneration =>
      some
        { x with
          task := .readState x.bss.buttonGeneration.toUInt32
          lastRead := x.changes, previousRead := x.lastRead }
    | _ => none
  | .readState => match x.task with
    | .readState nextGeneration =>
      some { x with task := .update nextGeneration x.bss.buttonState.toUInt32 }
    | _ => none
  | .update => match x.task with
    | .update nextGeneration nextState => some (x.updated nextGeneration nextState)
    | _ => none
  | .post accepted => match x.task with
    | .post [] => some { x with task := .waiting }
    | .post (e :: events) =>
      some
        { x with
          task := .post events, handed := e :: x.handed
          posted := if accepted then e :: x.posted else x.posted }
    | _ => none

/-! ## What the events should be -/

/-- The events of a button, the newest first. -/
def eventsOf (b : Button) (events : List Event) : List EventId :=
  events.filterMap fun e => if e.1 = b then some e.2 else none

/-- Whether a button is down after some events, the newest first. -/
def isDown : List EventId → Bool
  | [] => false
  | e :: _ => e = .down

/-- The events, the newest first, are in turn `DOWN` and `UP`, from `DOWN` on. -/
def Alternates : List EventId → Prop
  | [] => True
  | e :: events => (e = .down ↔ isDown events = false) ∧ Alternates events

/-- Whether a state shows a button as pressed. -/
def pressed (state : UInt32) (b : Button) : Bool := state &&& buttonMask b ≠ 0

/-- Nothing is left to be done for the changes so far. -/
structure Settled (x : System) : Prop where
  ulp : x.ulp = .idle
  wakePending : x.wakePending = false
  notified : x.notified = 0
  task : x.task = .waiting

/-- Fewer than 65536 changes between two reads. -/
def Fresh (x : System) (a : Action) : Prop :=
  a = .readGeneration → x.changes < x.lastRead + 2 ^ 16

instance (x : System) (a : Action) : Decidable (Fresh x a) :=
  inferInstanceAs (Decidable (_ → _))

/-! ## One update -/

theorem pressed_eq_testBit (state : UInt32) (b : Button) :
    pressed state b = state.toNat.testBit b.ctorIdx := by
  have hmask : (buttonMask b).toNat = 2 ^ b.ctorIdx := by cases b <;> rfl
  have hand : (state &&& buttonMask b).toNat = (state.toNat.testBit b.ctorIdx).toNat * 2 ^ b.ctorIdx := by
    rw [UInt32.toNat_and, hmask, Nat.and_two_pow]
  rw [pressed, Bool.eq_iff_iff, decide_eq_true_iff, Ne, ← UInt32.toNat_inj, hand]
  cases state.toNat.testBit b.ctorIdx <;> simp

theorem pressed_zero (b : Button) : pressed 0 b = false := by cases b <;> decide

theorem pressed_xor (s t : UInt32) (b : Button) :
    pressed (s ^^^ t) b = (pressed s b ^^ pressed t b) := by
  simp only [pressed_eq_testBit, UInt32.toNat_xor, Nat.testBit_xor]

theorem filterMap_single {b : Button} {l : List Button} {f : Button → Option EventId}
    (hl : l.Nodup) (hb : b ∈ l) (hf : ∀ c, c ≠ b → f c = none) :
    l.filterMap f = (f b).toList := by
  induction l with
  | nil => cases hb
  | cons c l ih =>
    obtain ⟨hc, hl⟩ := List.nodup_cons.mp hl
    by_cases hcb : c = b
    · subst hcb
      have hrest : l.filterMap f = [] :=
        List.filterMap_eq_nil_iff.mpr fun d hd => hf d fun heq => hc (heq ▸ hd)
      rw [List.filterMap_cons, hrest]
      cases f c <;> rfl
    · rw [List.filterMap_cons_none (hf c hcb)]
      exact ih hl ((List.mem_cons.mp hb).resolve_left fun heq => hcb heq.symm)

/-- An update collects an event of a button exactly when the button has changed. -/
theorem eventsOf_changedEvents (s t : UInt32) (b : Button) :
    eventsOf b (changedEvents (s ^^^ t) t) =
      if pressed s b = pressed t b then [] else [if pressed t b then .down else .up] := by
  have hsingle := filterMap_single (b := b) (l := buttons)
    (f := fun c => (if (s ^^^ t) &&& buttonMask c = 0 then none
      else some (c, if t &&& buttonMask c ≠ 0 then EventId.down else .up)).bind
        fun e : Event => if e.1 = b then some e.2 else none)
    (by decide) (by cases b <;> decide) ?_
  · rw [eventsOf, changedEvents, List.filterMap_filterMap, hsingle]
    have hxor := pressed_xor s t b
    unfold pressed at hxor ⊢
    split_ifs <;> simp_all
  · intro c hc
    split_ifs <;> simp [hc]

/-! ## What is published and what is read -/

namespace System

variable (x : System)

/-- How many changes the state in memory shows: it is stored before the change is counted. -/
def published : Nat := x.changes + if x.ulp = .stored then 1 else 0

/-- A state read behind a read of the generation is the one in memory, if nothing has
been published since. -/
def Current (read : Nat) (state : UInt32) : Prop :=
  read = x.published → state = x.bss.buttonState.toUInt32

end System

/-- The state is the one of the stable values, the generation counts the changes, and a
change that was not read has a wake-up on its way. -/
structure UlpInv (x : System) : Prop where
  stored : (storeState x.bss).buttonState = x.bss.buttonState
  generation : x.bss.buttonGeneration.toNat = x.changes % 2 ^ 16
  read : x.lastRead ≤ x.changes
  woken : x.lastRead < x.changes →
    x.ulp = .counted ∨ x.wakePending = true ∨ x.notified ≠ 0 ∨ x.task = .readGeneration

/-- A generation has been read that may be the one seen before. -/
structure Reading (x : System) (nextGeneration : UInt32) : Prop where
  next : nextGeneration.toNat = x.lastRead % 2 ^ 16
  seen : x.buttonGeneration.toNat = x.previousRead % 2 ^ 16
  order : x.previousRead ≤ x.lastRead
  fresh : x.lastRead < x.previousRead + 2 ^ 16
  current : x.Current x.previousRead x.buttonState

def TaskInv (x : System) : Prop :=
  match x.task with
  | .readState nextGeneration => Reading x nextGeneration
  | .update nextGeneration nextState =>
    Reading x nextGeneration ∧ x.Current x.lastRead nextState
  | _ => x.buttonGeneration.toNat = x.lastRead % 2 ^ 16 ∧ x.Current x.lastRead x.buttonState

/-- The events handed over and the ones still to come, the newest first. -/
def System.events (x : System) : List Event :=
  match x.task with
  | .post events => events.reverse ++ x.handed
  | _ => x.handed

/-- The events of a button alternate up to what the task takes its state to be. -/
def EventInv (x : System) : Prop :=
  ∀ b, Alternates (eventsOf b x.events) ∧ isDown (eventsOf b x.events) = pressed x.buttonState b

structure Inv (x : System) : Prop where
  ulp : UlpInv x
  task : TaskInv x
  events : EventInv x

theorem init_inv (threshold : UInt16) : Inv (init threshold) where
  ulp := ⟨rfl, rfl, Nat.le_refl _, fun h => absurd h (Nat.lt_irrefl _)⟩
  task := ⟨rfl, fun _ => rfl⟩
  events b := ⟨trivial, (pressed_zero b).symm⟩

variable {x y : System}

/-! ### The ULP program -/

/-- What the ULP program and the interrupt leave to the task. -/
structure Leaves (x y : System) : Prop where
  task : y.task = x.task
  buttonState : y.buttonState = x.buttonState
  buttonGeneration : y.buttonGeneration = x.buttonGeneration
  lastRead : y.lastRead = x.lastRead
  previousRead : y.previousRead = x.previousRead
  handed : y.handed = x.handed
  current : ∀ read state, read ≤ x.changes → x.Current read state → y.Current read state

theorem Reading.transfer {nextGeneration : UInt32} (h : Reading x nextGeneration)
    (hread : x.lastRead ≤ x.changes) (hl : Leaves x y) : Reading y nextGeneration where
  next := hl.lastRead ▸ h.next
  seen := by rw [hl.buttonGeneration, hl.previousRead]; exact h.seen
  order := by rw [hl.previousRead, hl.lastRead]; exact h.order
  fresh := by rw [hl.previousRead, hl.lastRead]; exact h.fresh
  current := by
    rw [hl.previousRead, hl.buttonState]
    exact hl.current _ _ (Nat.le_trans h.order hread) h.current

theorem Inv.transfer (h : Inv x) (hl : Leaves x y) (hulp : UlpInv y) : Inv y where
  ulp := hulp
  task := by
    have hread := h.ulp.read
    have htask := h.task
    unfold TaskInv at htask ⊢
    rw [hl.task]
    cases hpc : x.task with
    | readState nextGeneration =>
      rw [hpc] at htask
      exact Reading.transfer htask hread hl
    | update nextGeneration nextState =>
      rw [hpc] at htask
      exact ⟨Reading.transfer htask.1 hread hl, hl.lastRead ▸ hl.current _ _ hread htask.2⟩
    | waiting | readGeneration | post =>
      rw [hpc] at htask
      rw [hl.buttonGeneration, hl.buttonState, hl.lastRead]
      exact ⟨htask.1, hl.current _ _ hread htask.2⟩
  events := by
    intro b
    have hevents : y.events = x.events := by rw [System.events, System.events, hl.task, hl.handed]
    rw [hevents, hl.buttonState]
    exact h.events b

theorem sample_leaves (h : UlpInv x) (hidle : x.ulp = .idle) (s : Sample) :
    Leaves x (x.sample s) ∧ UlpInv (x.sample s) := by
  have hflag := processLadders_flag x.bss s
  have hgen : (processLadders x.bss s).1.buttonGeneration = x.bss.buttonGeneration := rfl
  have hx : x.published = x.changes := by rw [System.published, hidle]; rfl
  unfold System.sample
  generalize processLadders x.bss s = r at hflag hgen
  obtain ⟨m, r2⟩ := r
  dsimp only at hflag hgen ⊢
  split_ifs at hflag with hsame
  · -- No stable value has changed: the state is stored as it was.
    have hstate : (storeState m).buttonState = x.bss.buttonState :=
      (storeState_buttonState hsame.1 hsame.2).trans h.stored
    rw [hflag]
    refine ⟨⟨rfl, rfl, rfl, rfl, rfl, rfl, fun read state _ hcur hread => ?_⟩,
      ⟨rfl, hgen ▸ h.generation, h.read, fun hlt => ?_⟩⟩
    · rw [hcur (hread.trans hx.symm)]
      exact congrArg UInt16.toUInt32 hstate.symm
    · rcases h.woken hlt with hulp | hrest
      · rw [hidle] at hulp
        cases hulp
      · exact .inr hrest
  · rw [hflag]
    refine ⟨⟨rfl, rfl, rfl, rfl, rfl, rfl, fun read state hle _ hread => ?_⟩,
      ⟨rfl, hgen ▸ h.generation, h.read, fun hlt => ?_⟩⟩
    · -- What was read is older than the change that is published now.
      change read = x.changes + 1 at hread
      omega
    · rcases h.woken hlt with hulp | hrest
      · rw [hidle] at hulp
        cases hulp
      · exact .inr hrest

theorem count_leaves (h : UlpInv x) (hstored : x.ulp = .stored) :
    Leaves x { x with bss := countChange x.bss, ulp := .counted, changes := x.changes + 1 } ∧
      UlpInv { x with bss := countChange x.bss, ulp := .counted, changes := x.changes + 1 } := by
  have hx : x.published = x.changes + 1 := by rw [System.published, hstored]; rfl
  refine ⟨⟨rfl, rfl, rfl, rfl, rfl, rfl, fun read state _ hcur hread => hcur (hread.trans hx.symm)⟩,
    ⟨h.stored, ?_, Nat.le_succ_of_le h.read, fun _ => .inl rfl⟩⟩
  change (x.bss.buttonGeneration + 1).toNat = _
  rw [UInt16.toNat_add, h.generation, UInt16.toNat_one, Nat.mod_add_mod]

theorem wake_leaves (h : UlpInv x) (hcounted : x.ulp = .counted) :
    Leaves x { x with ulp := .idle, wakePending := true } ∧
      UlpInv { x with ulp := .idle, wakePending := true } := by
  have hx : x.published = x.changes := by rw [System.published, hcounted]; rfl
  exact ⟨⟨rfl, rfl, rfl, rfl, rfl, rfl, fun read state _ hcur hread => hcur (hread.trans hx.symm)⟩,
    ⟨h.stored, h.generation, h.read, fun _ => .inr (.inl rfl)⟩⟩

theorem isr_leaves (h : UlpInv x) :
    Leaves x { x with wakePending := false, notified := x.notified + 1 } ∧
      UlpInv { x with wakePending := false, notified := x.notified + 1 } :=
  ⟨⟨rfl, rfl, rfl, rfl, rfl, rfl, fun _ _ _ hcur hread => hcur hread⟩,
    ⟨h.stored, h.generation, h.read, fun _ => .inr (.inr (.inl (Nat.succ_ne_zero _)))⟩⟩

/-! ### The task -/

/-- What a step of the task that reads no generation leaves to the ULP program. -/
structure Keeps (x y : System) : Prop where
  bss : y.bss = x.bss
  ulp : y.ulp = x.ulp
  wakePending : y.wakePending = x.wakePending
  notified : y.notified = x.notified
  changes : y.changes = x.changes
  lastRead : y.lastRead = x.lastRead

theorem UlpInv.transfer (h : UlpInv x) (htask : x.task ≠ .readGeneration) (hk : Keeps x y) :
    UlpInv y where
  stored := by rw [hk.bss]; exact h.stored
  generation := by rw [hk.bss, hk.changes]; exact h.generation
  read := by rw [hk.lastRead, hk.changes]; exact h.read
  woken hlt := by
    rw [hk.lastRead, hk.changes] at hlt
    rw [hk.ulp, hk.wakePending, hk.notified]
    rcases h.woken hlt with hw | hw | hw | hw
    · exact .inl hw
    · exact .inr (.inl hw)
    · exact .inr (.inr (.inl hw))
    · exact absurd hw htask

theorem Inv.take (h : Inv x) (htask : x.task = .waiting) :
    Inv { x with notified := 0, task := .readGeneration } := by
  obtain ⟨hu, ht, he⟩ := h
  unfold TaskInv at ht
  unfold EventInv System.events at he
  rw [htask] at ht he
  exact ⟨⟨hu.stored, hu.generation, hu.read, fun _ => .inr (.inr (.inr rfl))⟩, ht, he⟩

theorem Inv.readGeneration (h : Inv x) (htask : x.task = .readGeneration)
    (hfresh : x.changes < x.lastRead + 2 ^ 16) :
    Inv { x with
      task := .readState x.bss.buttonGeneration.toUInt32
      lastRead := x.changes, previousRead := x.lastRead } := by
  obtain ⟨hu, ht, he⟩ := h
  unfold TaskInv at ht
  unfold EventInv System.events at he
  rw [htask] at ht he
  refine ⟨⟨hu.stored, hu.generation, Nat.le_refl _, fun hlt => absurd hlt (Nat.lt_irrefl _)⟩,
    ⟨?_, ht.1, hu.read, hfresh, ht.2⟩, he⟩
  rw [UInt16.toNat_toUInt32]
  exact hu.generation

theorem Inv.readState (h : Inv x) {nextGeneration : UInt32}
    (htask : x.task = .readState nextGeneration) :
    Inv { x with task := .update nextGeneration x.bss.buttonState.toUInt32 } := by
  obtain ⟨hu, ht, he⟩ := h
  unfold TaskInv at ht
  unfold EventInv System.events at he
  rw [htask] at ht he
  exact ⟨hu.transfer (by rw [htask]; intro h; cases h) ⟨rfl, rfl, rfl, rfl, rfl, rfl⟩,
    ⟨⟨ht.next, ht.seen, ht.order, ht.fresh, ht.current⟩, fun _ => rfl⟩, he⟩

theorem eventsOf_append (b : Button) (events log : List Event) :
    eventsOf b (events ++ log) = eventsOf b events ++ eventsOf b log := List.filterMap_append

/-- The events of one update go on from what the task took the state to be before. -/
theorem alternates_changedEvents {b : Button} {s t : UInt32} {log : List Event}
    (h : Alternates (eventsOf b log) ∧ isDown (eventsOf b log) = pressed s b) :
    Alternates (eventsOf b ((changedEvents (s ^^^ t) t).reverse ++ log)) ∧
      isDown (eventsOf b ((changedEvents (s ^^^ t) t).reverse ++ log)) = pressed t b := by
  have hreverse : eventsOf b (changedEvents (s ^^^ t) t).reverse =
      (eventsOf b (changedEvents (s ^^^ t) t)).reverse := List.filterMap_reverse
  rw [eventsOf_append, hreverse, eventsOf_changedEvents]
  obtain ⟨halt, hdown⟩ := h
  by_cases hsame : pressed s b = pressed t b
  · rw [if_pos hsame]
    exact ⟨halt, hdown.trans hsame⟩
  · rw [if_neg hsame, List.reverse_singleton, List.singleton_append]
    refine ⟨⟨?_, halt⟩, ?_⟩
    · rw [hdown]
      cases hs : pressed s b <;> cases ht : pressed t b <;> simp_all
    · cases pressed t b <;> rfl

theorem Inv.update (h : Inv x) {nextGeneration nextState : UInt32}
    (htask : x.task = .update nextGeneration nextState) :
    Inv (x.updated nextGeneration nextState) := by
  obtain ⟨hu, ht, he⟩ := h
  have hne : x.task ≠ .readGeneration := by rw [htask]; intro h; cases h
  unfold TaskInv at ht
  unfold EventInv System.events at he
  rw [htask] at ht he
  obtain ⟨hr, hcur⟩ := ht
  unfold System.updated
  split_ifs with hsame
  · -- The generation was the one seen before: no change lies between the two reads.
    have hread : x.previousRead = x.lastRead := by
      have hmod := hr.next.symm.trans ((congrArg UInt32.toNat hsame).trans hr.seen)
      have horder := hr.order
      have hfresh := hr.fresh
      omega
    have hseen := hr.seen
    have hcurrent := hr.current
    rw [hread] at hseen hcurrent
    exact ⟨hu.transfer hne ⟨rfl, rfl, rfl, rfl, rfl, rfl⟩, ⟨hseen, hcurrent⟩, he⟩
  · exact ⟨hu.transfer hne ⟨rfl, rfl, rfl, rfl, rfl, rfl⟩, ⟨hr.next, hcur⟩,
      fun b => alternates_changedEvents (he b)⟩

theorem Inv.posted (h : Inv x) (htask : x.task = .post []) : Inv { x with task := .waiting } := by
  obtain ⟨hu, ht, he⟩ := h
  unfold TaskInv at ht
  unfold EventInv System.events at he
  rw [htask] at ht he
  exact ⟨hu.transfer (by rw [htask]; intro h; cases h) ⟨rfl, rfl, rfl, rfl, rfl, rfl⟩, ht, he⟩

theorem Inv.post (h : Inv x) {e : Event} {events posted : List Event}
    (htask : x.task = .post (e :: events)) :
    Inv { x with task := .post events, handed := e :: x.handed, posted := posted } := by
  obtain ⟨hu, ht, he⟩ := h
  unfold TaskInv at ht
  unfold EventInv System.events at he
  rw [htask] at ht he
  refine ⟨hu.transfer (by rw [htask]; intro h; cases h) ⟨rfl, rfl, rfl, rfl, rfl, rfl⟩, ht,
    fun b => ?_⟩
  have hb := he b
  dsimp only at hb
  rw [List.reverse_cons, List.append_assoc, List.singleton_append] at hb
  exact hb

/-! ## Every run -/

theorem Inv.step (h : Inv x) {a : Action} (hfresh : Fresh x a) (hstep : step x a = some y) :
    Inv y := by
  unfold ButtonEvents.step at hstep
  cases a with
  | sample s =>
    cases hulp : x.ulp with
    | idle =>
      rw [hulp] at hstep
      cases hstep
      obtain ⟨hl, hu⟩ := sample_leaves h.ulp hulp s
      exact h.transfer hl hu
    | stored | counted => rw [hulp] at hstep; cases hstep
  | count =>
    cases hulp : x.ulp with
    | stored =>
      rw [hulp] at hstep
      cases hstep
      obtain ⟨hl, hu⟩ := count_leaves h.ulp hulp
      exact h.transfer hl hu
    | idle | counted => rw [hulp] at hstep; cases hstep
  | wake =>
    cases hulp : x.ulp with
    | counted =>
      rw [hulp] at hstep
      cases hstep
      obtain ⟨hl, hu⟩ := wake_leaves h.ulp hulp
      exact h.transfer hl hu
    | idle | stored => rw [hulp] at hstep; cases hstep
  | isr =>
    dsimp only at hstep
    split_ifs at hstep
    cases hstep
    obtain ⟨hl, hu⟩ := isr_leaves h.ulp
    exact h.transfer hl hu
  | take =>
    cases htask : x.task with
    | waiting =>
      rw [htask] at hstep
      dsimp only at hstep
      split_ifs at hstep
      cases hstep
      exact h.take htask
    | readGeneration | readState | update | post => rw [htask] at hstep; cases hstep
  | readGeneration =>
    cases htask : x.task with
    | readGeneration =>
      rw [htask] at hstep
      cases hstep
      exact h.readGeneration htask (hfresh rfl)
    | waiting | readState | update | post => rw [htask] at hstep; cases hstep
  | readState =>
    cases htask : x.task with
    | readState nextGeneration =>
      rw [htask] at hstep
      cases hstep
      exact h.readState htask
    | waiting | readGeneration | update | post => rw [htask] at hstep; cases hstep
  | update =>
    cases htask : x.task with
    | update nextGeneration nextState =>
      rw [htask] at hstep
      cases hstep
      exact h.update htask
    | waiting | readGeneration | readState | post => rw [htask] at hstep; cases hstep
  | post accepted =>
    cases htask : x.task with
    | post events =>
      rw [htask] at hstep
      cases events with
      | nil =>
        cases hstep
        exact h.posted htask
      | cons e events =>
        cases hstep
        exact h.post htask
    | waiting | readGeneration | readState | update => rw [htask] at hstep; cases hstep

/-- Without refusals what was posted is what was handed over. -/
theorem posted_step {a : Action} (ha : a ≠ .post false) (h : x.posted = x.handed)
    (hstep : step x a = some y) : y.posted = y.handed := by
  unfold ButtonEvents.step at hstep
  cases a with
  | post accepted =>
    cases accepted with
    | false => exact absurd rfl ha
    | true =>
      dsimp only at hstep
      split at hstep
      · cases hstep
        exact h
      · cases hstep
        exact congrArg (List.cons _) h
      · cases hstep
  | update =>
    dsimp only at hstep
    split at hstep
    · cases hstep
      unfold System.updated
      split <;> exact h
    · cases hstep
  | sample | count | wake | isr | take | readGeneration | readState =>
    dsimp only at hstep
    repeat' split at hstep
    all_goals first
      | (cases hstep; exact h)
      | cases hstep

/-- What is right about the events of a system. -/
structure EventsOk (x : System) : Prop where
  /-- The events of a button handed over are `DOWN` and `UP` in turn. -/
  alternate : ∀ b, Alternates (eventsOf b x.handed)
  /-- When nothing is left to be done, the task has the state that is in memory. -/
  state : Settled x → x.buttonState = x.bss.buttonState.toUInt32
  /-- And the last event of a button matches it. -/
  last : Settled x → ∀ b, isDown (eventsOf b x.handed) = pressed x.bss.buttonState.toUInt32 b

theorem alternates_of_append {a l : List EventId} (h : Alternates (a ++ l)) : Alternates l := by
  induction a with
  | nil => exact h
  | cons e a ih => exact ih h.2

theorem Inv.eventsOk (h : Inv x) : EventsOk x := by
  have hstate : Settled x → x.buttonState = x.bss.buttonState.toUInt32 := by
    intro hs
    have ht := h.task
    unfold TaskInv at ht
    rw [hs.task] at ht
    have hread : x.lastRead = x.changes := by
      refine Nat.le_antisymm h.ulp.read (Nat.not_lt.mp fun hlt => ?_)
      have hw := h.ulp.woken hlt
      rw [hs.ulp, hs.wakePending, hs.notified, hs.task] at hw
      simp at hw
    refine ht.2 ?_
    rw [hread, System.published, hs.ulp]
    rfl
  refine ⟨fun b => ?_, hstate, fun hs b => ?_⟩
  · have halt := (h.events b).1
    unfold System.events at halt
    split at halt
    · rw [eventsOf_append] at halt
      exact alternates_of_append halt
    · exact halt
  · have hdown := (h.events b).2
    unfold System.events at hdown
    rw [hs.task] at hdown
    rw [← hstate hs]
    exact hdown

/-- **Button events**, for every interleaving. -/
theorem events_ok (threshold : UInt16) (actions : List Action)
    (hfresh : Along step Fresh (init threshold) actions)
    (hrun : run step (init threshold) actions = some x) :
    EventsOk x ∧ ((∀ a ∈ actions, a ≠ .post false) → x.posted = x.handed) := by
  have hinv := run_invariant (fun _ _ _ h hf hs => h.step hf hs) (init_inv threshold) hfresh hrun
  refine ⟨hinv.eventsOk, fun haccepted => ?_⟩
  have hposted : ∀ (x : System) a y, x.posted = x.handed → a ≠ .post false →
      step x a = some y → y.posted = y.handed := fun _ _ _ h ha hs => posted_step ha h hs
  exact run_invariant (C := fun _ a => a ≠ Action.post false) (I := fun x => x.posted = x.handed)
    hposted rfl (along_of_forall haccepted) hrun

/-- Button 1 of the main ladder is pressed for three samples and let go for three; the
task handles each change at once, and its first event is accepted or not. -/
def pressAndRelease (accepted : Bool) : List Action :=
  let handle := [Action.count, .wake, .isr, .take, .readGeneration, .readState, .update]
  List.replicate 3 (.sample ⟨1500, 1400⟩) ++ handle ++ [.post accepted, .post true] ++
    List.replicate 3 (.sample ⟨1400, 1400⟩) ++ handle ++ [.post true, .post true]

theorem events_ok_press : ∃ x, run step (init debounceCount) (pressAndRelease true) = some x ∧
    EventsOk x ∧ x.posted = x.handed := by
  obtain ⟨x, hrun⟩ := Option.isSome_iff_exists.mp
    (by decide : (run step (init debounceCount) (pressAndRelease true)).isSome)
  have h := events_ok debounceCount _ (by decide) hrun
  exact ⟨x, hrun, h.1, h.2 (by decide)⟩

/-- `esp_event_post` refuses the first event: the only one posted is an `UP`. -/
theorem refused_not_alternating :
    (run step (init debounceCount) (pressAndRelease false)).map
        (fun x => eventsOf .main1 x.posted) = some [.up] ∧
      Along step Fresh (init debounceCount) (pressAndRelease false) ∧ ¬ Alternates [.up] := by
  refine ⟨by decide, by decide, fun h => ?_⟩
  exact absurd (h.1.mpr rfl) (by decide)

end Jukeboy.Hid.ButtonEvents
