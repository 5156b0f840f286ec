import Mathlib.Data.List.Nodup
import Mathlib.Data.List.Infix
import Jukeboy.Power.Shutdown

/-! # The shutdown sequence

The callbacks stand in the order of their priorities, and of their registration among
equals, each once, and a reboot calls them in turn. It has no way back: what its callbacks
and its turning the rails off have done stays when a later step fails. -/
namespace Jukeboy.Power.Shutdown

open Jukeboy.Base Jukeboy.Base.Runs Jukeboy.Power.Rails

/-! ## What the sequence is to be -/

/-- The callbacks are sorted by priority, stand in the order of their registration among
equals, and are all different. -/
structure Sorted (s : State) : Prop where
  priorities : s.callbacks.Pairwise fun a b => a.priority ≤ b.priority
  registration : ∀ p, s.callbacks.filter (fun e => e.priority = p) =
    s.registered.filter fun e => e.priority = p
  once : s.callbacks.Pairwise fun a b => ¬ (a.callback = b.callback ∧ a.userCtx = b.userCtx)

/-- What the callbacks make of the rails, each called on what the one before has left. -/
def after (io : RebootIo) (s : Service) (entries : List Entry) : Service :=
  entries.foldl (fun s e => (io.callback e s).2) s

/-- The callbacks called are those registered, in their order, up to the first that fails, and
what is noted of each is what it has returned. -/
structure InTurn (io : RebootIo) (s : Service) (callbacks : List Entry)
    (called : List (Entry × EspErr)) : Prop where
  order : called.map Prod.fst <+: callbacks
  all : (∀ c ∈ called, c.2 = .ok) → called.map Prod.fst = callbacks
  last : ∀ before c behind, called = before ++ c :: behind → c.2 ≠ .ok → behind = []
  returned : ∀ before c behind, called = before ++ c :: behind →
    c.2 = (io.callback c.1 (after io s (before.map Prod.fst))).1

/-- What a reboot owes: callbacks in turn, the error of the one that fails, none when the event
cannot be posted, and the rails untouched when it returns an error. The rails are otherwise
what the callbacks called have left, and after all of them switched off. -/
structure Reboots (io : RebootIo) (s : State) (rebooted : Rebooted) : Prop where
  inTurn : io.shutdownPost = .ok → InTurn io s.service s.callbacks rebooted.called
  failed : ∀ c ∈ rebooted.called, c.2 ≠ .ok → rebooted.err = c.2 ∧
    rebooted.state.service = after io s.service (rebooted.called.map Prod.fst)
  passed : io.shutdownPost = .ok → (∀ c ∈ rebooted.called, c.2 = .ok) →
    rebooted.state.service = (setAllRailsOff io (after io s.service s.callbacks)).1
  unposted : io.shutdownPost ≠ .ok → rebooted.called = [] ∧ rebooted.err ≠ .ok
  railsKept : rebooted.err ≠ .ok → rebooted.state.service.rails = s.service.rails

/-- A rejected registration changes nothing, and reboots keep what they owe. -/
def Sequenced (s : State) : Action → Prop
  | .register callback userCtx priority =>
    (registerShutdownCallback s callback userCtx priority).1 ≠ .ok →
      (registerShutdownCallback s callback userCtx priority).2 = s
  | .reboot io => Reboots io s (Shutdown.reboot io s)
  | .rebootToDownload io => Reboots io s (Shutdown.rebootToDownload io s)
  | _ => True

/-! ## The condition -/

/-- A rail that is on cannot be switched off. -/
def Stuck (io : RebootIo) (s : Service) (rail : Rail) : Prop :=
  (s.rails rail).enabled = true ∧ firstError io.answers (switchCalls s rail false) ≠ .ok

instance (io : RebootIo) (s : Service) (rail : Rail) : Decidable (Stuck io s rail) :=
  inferInstanceAs (Decidable (_ ∧ _))

/-- Every rail that is on is switched off, and its event posted. -/
def SwitchesOff (io : RebootIo) (s : Service) : Prop :=
  ∀ rail, (s.rails rail).enabled = true →
    firstError io.answers (switchCalls s rail false) = .ok ∧ io.railPost rail = .ok

/-- The rails before the reboot are what it would make of them: forced off, not requested,
and on only where they cannot be switched off. -/
def OffBefore (io : RebootIo) (before after : Service) : Prop :=
  ∀ rail, before.rails rail = ⟨0, .forceOff, decide (Stuck io after rail)⟩

/-- The callbacks all succeed, each called on the rails that the one before has left. -/
def Succeed (io : RebootIo) : Service → List Entry → Prop
  | _, [] => True
  | s, e :: entries => (io.callback e s).1 = .ok ∧ Succeed io (io.callback e s).2 entries

/-- The first callback to fail leaves the rails as they were before the first was called; and
when all succeed the rails are switched off and no action is pending, unless the rails were off
before. -/
def Atomic (s : State) (io : RebootIo) : Prop :=
  io.shutdownPost = .ok →
    (∀ before e behind, s.callbacks = before ++ e :: behind → Succeed io s.service before →
      (io.callback e (after io s.service before)).1 ≠ .ok →
        (after io s.service (before ++ [e])).rails = s.service.rails) ∧
      (Succeed io s.service s.callbacks →
        SwitchesOff io (after io s.service s.callbacks) ∧ s.pending = none ∨
          OffBefore io s.service (after io s.service s.callbacks))

def Undone (s : State) : Action → Prop
  | .reboot io => Atomic s io
  | .rebootToDownload io => Atomic s io
  | _ => True

/-! ## Registration -/

theorem insertEntry_eq (entry : Entry) (before after : List Entry) :
    ∃ low high, before.reverse = low ++ high ∧
      insertEntry entry before after = low ++ entry :: (high ++ after) ∧
      (∀ e ∈ high, entry.priority < e.priority) ∧
      (∀ e, low.getLast? = some e → e.priority ≤ entry.priority) := by
  induction before generalizing after with
  | nil => exact ⟨[], [], rfl, rfl, by simp, by simp⟩
  | cons e before ih =>
    rw [insertEntry]
    split
    · next hlt =>
      obtain ⟨low, high, hbefore, hinsert, hhigh, hlow⟩ := ih (e :: after)
      refine ⟨low, high ++ [e], ?_, ?_, ?_, hlow⟩
      · rw [List.reverse_cons, hbefore, List.append_assoc]
      · rw [hinsert, List.append_assoc, List.singleton_append]
      · intro x hx
        obtain hx | hx := List.mem_append.mp hx
        · exact hhigh x hx
        · rw [List.mem_singleton.mp hx]
          exact hlt
    · next hge =>
      refine ⟨(e :: before).reverse, [], (List.append_nil _).symm, rfl, by simp, ?_⟩
      intro x hx
      rw [List.getLast?_reverse, List.head?_cons, Option.some.injEq] at hx
      subst hx
      omega

/-- In a sorted list the entry goes past all that are not above it. -/
theorem insertEntry_sorted {callbacks : List Entry} (entry : Entry)
    (h : callbacks.Pairwise fun a b => a.priority ≤ b.priority) :
    ∃ low high, callbacks = low ++ high ∧
      insertEntry entry callbacks.reverse [] = low ++ entry :: high ∧
      (∀ e ∈ low, e.priority ≤ entry.priority) ∧ ∀ e ∈ high, entry.priority < e.priority := by
  obtain ⟨low, high, hsplit, hinsert, hhigh, hlast⟩ := insertEntry_eq entry callbacks.reverse []
  rw [List.reverse_reverse] at hsplit
  rw [List.append_nil] at hinsert
  refine ⟨low, high, hsplit, hinsert, ?_, hhigh⟩
  intro e he
  rw [hsplit, List.pairwise_append] at h
  -- the last one below it bounds them all
  obtain rfl | ⟨front, last, rfl⟩ := List.eq_nil_or_concat low
  · cases he
  · have hbound := hlast last (by simp)
    rw [List.concat_eq_append] at he h
    obtain he | he := List.mem_append.mp he
    · have hle := (List.pairwise_append.mp h.1).2.2 e he last (by simp)
      omega
    · rw [List.mem_singleton.mp he]
      exact hbound

theorem sorted_register {s : State} (h : Sorted s) (callback : Option Nat) (userCtx : Nat)
    (priority : Int) : Sorted (registerShutdownCallback s callback userCtx priority).2 := by
  unfold registerShutdownCallback
  cases callback with
  | none => exact h
  | some callback =>
    dsimp only
    split
    · exact h
    next hnew =>
    split
    · exact h
    obtain ⟨low, high, hsplit, hinsert, hlow, hhigh⟩ :=
      insertEntry_sorted ⟨callback, userCtx, priority⟩ h.priorities
    have hsorted := h.priorities
    have honce := h.once
    have hregistration := h.registration
    have hdifferent : ∀ e ∈ low ++ high, ¬ (e.callback = callback ∧ e.userCtx = userCtx) := by
      intro e he heq
      apply hnew
      rw [List.any_eq_true]
      exact ⟨e, hsplit ▸ he, by simp [heq]⟩
    rw [hsplit, List.pairwise_append] at hsorted honce
    refine ⟨?_, ?_, ?_⟩
    · rw [hinsert, List.pairwise_append, List.pairwise_cons]
      refine ⟨hsorted.1, ⟨fun e he => Int.le_of_lt (hhigh e he), hsorted.2.1⟩, ?_⟩
      intro a ha b hb
      obtain rfl | hb := List.mem_cons.mp hb
      · exact hlow a ha
      · exact hsorted.2.2 a ha b hb
    · intro p
      have hregistration := hregistration p
      rw [hsplit, List.filter_append] at hregistration
      rw [hinsert, List.filter_append, List.filter_append, ← hregistration, List.filter_cons]
      split
      · next hp =>
        -- the entries of its own priority all stand below it
        have hp : priority = p := by simpa using hp
        have hnone : high.filter (fun e => e.priority = p) = [] := by
          rw [List.filter_eq_nil_iff]
          intro e he heq
          have hlt : priority < e.priority := hhigh e he
          have heq : e.priority = p := by simpa using heq
          omega
        rw [hnone, List.append_nil, List.filter_cons_of_pos (by simpa using hp)]
        rfl
      · next hp =>
        rw [List.filter_cons_of_neg (by simpa using hp)]
        exact (List.append_nil _).symm
    · rw [hinsert, List.pairwise_append, List.pairwise_cons]
      refine ⟨honce.1, ⟨fun e he heq => ?_, honce.2.1⟩, ?_⟩
      · exact hdifferent e (List.mem_append_right _ he) ⟨heq.1.symm, heq.2.symm⟩
      · intro a ha b hb
        obtain rfl | hb := List.mem_cons.mp hb
        · exact hdifferent a (List.mem_append_left _ ha)
        · exact honce.2.2 a ha b hb

theorem register_rejected (s : State) (callback : Option Nat) (userCtx : Nat) (priority : Int)
    (h : (registerShutdownCallback s callback userCtx priority).1 ≠ .ok) :
    (registerShutdownCallback s callback userCtx priority).2 = s := by
  unfold registerShutdownCallback at h ⊢
  cases callback with
  | none => rfl
  | some callback =>
    dsimp only at h ⊢
    split
    · rfl
    next hnew =>
    rw [if_neg hnew] at h
    split
    · rfl
    next hroom =>
    rw [if_neg hroom] at h
    exact absurd rfl h

/-! ## Callbacks -/

theorem runCallbacks_cons_ok {io : RebootIo} {s : Service} {e : Entry}
    (h : (io.callback e s).1 = .ok) (entries : List Entry) :
    runCallbacks io s (e :: entries) =
      { runCallbacks io (io.callback e s).2 entries with
        called := (e, .ok) :: (runCallbacks io (io.callback e s).2 entries).called } := by
  rw [runCallbacks]
  dsimp only
  rw [if_neg (not_not.mpr h), h]

theorem runCallbacks_cons_failed {io : RebootIo} {s : Service} {e : Entry}
    (h : (io.callback e s).1 ≠ .ok) (entries : List Entry) :
    runCallbacks io s (e :: entries) =
      ⟨(io.callback e s).1, (io.callback e s).2, [(e, (io.callback e s).1)]⟩ := by
  rw [runCallbacks]
  dsimp only
  rw [if_pos h]

theorem runCallbacks_inTurn (io : RebootIo) (s : Service) (entries : List Entry) :
    InTurn io s entries (runCallbacks io s entries).called := by
  induction entries generalizing s with
  | nil => exact ⟨List.prefix_rfl, fun _ => rfl, by simp [runCallbacks], by simp [runCallbacks]⟩
  | cons e entries ih =>
    by_cases hok : (io.callback e s).1 = .ok
    · rw [runCallbacks_cons_ok hok]
      have ih := ih (io.callback e s).2
      constructor
      · rw [List.map_cons]
        exact (List.prefix_cons_inj e).mpr ih.order
      · intro hall
        rw [List.map_cons, ih.all fun c hc => hall c (List.mem_cons_of_mem _ hc)]
      · intro before c behind hsplit hfailed
        cases before with
        | nil =>
          obtain ⟨rfl, -⟩ := List.cons.inj hsplit
          exact absurd rfl hfailed
        | cons d before =>
          exact ih.last before c behind (List.cons.inj hsplit).2 hfailed
      · intro before c behind hsplit
        cases before with
        | nil =>
          obtain ⟨rfl, -⟩ := List.cons.inj hsplit
          exact hok.symm
        | cons d before =>
          obtain ⟨hd, hrest⟩ := List.cons.inj hsplit
          rw [← hd]
          exact ih.returned before c behind hrest
    · rw [runCallbacks_cons_failed hok]
      have honly : ∀ {before : List (Entry × EspErr)} {c behind},
          [(e, (io.callback e s).1)] = before ++ c :: behind →
            before = [] ∧ c = (e, (io.callback e s).1) ∧ behind = [] := by
        intro before c behind hsplit
        cases before with
        | nil =>
          obtain ⟨rfl, rfl⟩ := List.cons.inj hsplit
          exact ⟨rfl, rfl, rfl⟩
        | cons d before => simp at hsplit
      constructor
      · exact ⟨entries, rfl⟩
      · exact fun hall => absurd (hall _ (List.mem_singleton_self _)) hok
      · exact fun before c behind hsplit _ => (honly hsplit).2.2
      · intro before c behind hsplit
        obtain ⟨rfl, rfl, -⟩ := honly hsplit
        rfl

/-- What the callbacks called have left, and the error of the one that failed. -/
theorem runCallbacks_left (io : RebootIo) (s : Service) (entries : List Entry) :
    let ran := runCallbacks io s entries
    ran.service = after io s (ran.called.map Prod.fst) ∧
      (∀ c ∈ ran.called, c.2 ≠ .ok → ran.err = c.2) ∧
      ((∀ c ∈ ran.called, c.2 = .ok) → ran.err = .ok) := by
  dsimp only
  induction entries generalizing s with
  | nil => exact ⟨rfl, by simp [runCallbacks], fun _ => rfl⟩
  | cons e entries ih =>
    by_cases hok : (io.callback e s).1 = .ok
    · rw [runCallbacks_cons_ok hok]
      obtain ⟨hservice, herr, hnone⟩ := ih (io.callback e s).2
      refine ⟨hservice, List.forall_mem_cons.mpr ⟨fun hne => absurd rfl hne, herr⟩, ?_⟩
      exact fun hall => hnone (List.forall_mem_cons.mp hall).2
    · rw [runCallbacks_cons_failed hok]
      exact ⟨rfl, List.forall_mem_singleton.mpr fun _ => rfl,
        fun hall => hall _ (List.mem_singleton_self _)⟩

/-- The run of the callbacks has no error exactly when all of them succeed. -/
theorem runCallbacks_ok_iff (io : RebootIo) (s : Service) (entries : List Entry) :
    ((runCallbacks io s entries).err = .ok ↔ Succeed io s entries) ∧
      (Succeed io s entries → (runCallbacks io s entries).service = after io s entries) := by
  induction entries generalizing s with
  | nil => exact ⟨iff_of_true rfl trivial, fun _ => rfl⟩
  | cons e entries ih =>
    by_cases hok : (io.callback e s).1 = .ok
    · rw [runCallbacks_cons_ok hok, Succeed, and_iff_right hok]
      exact ih (io.callback e s).2
    · rw [runCallbacks_cons_failed hok]
      exact ⟨iff_of_false hok (fun h => hok h.1), fun h => absurd h.1 hok⟩

/-- Where the callbacks do not all succeed there is a first that fails. -/
theorem exists_failure {io : RebootIo} {s : Service} {entries : List Entry}
    (h : ¬ Succeed io s entries) :
    ∃ before e behind, entries = before ++ e :: behind ∧ Succeed io s before ∧
      (io.callback e (after io s before)).1 ≠ .ok := by
  induction entries generalizing s with
  | nil => exact absurd trivial h
  | cons e entries ih =>
    by_cases hok : (io.callback e s).1 = .ok
    · obtain ⟨before, e', behind, hsplit, hsucceed, hfailed⟩ := ih fun hrest => h ⟨hok, hrest⟩
      exact ⟨e :: before, e', behind, by rw [hsplit]; rfl, ⟨hok, hsucceed⟩, hfailed⟩
    · exact ⟨[], e, entries, rfl, trivial, hok⟩

/-- The run of the callbacks ends with the first that fails. -/
theorem runCallbacks_failed {io : RebootIo} {s : Service} {before : List Entry} {e : Entry}
    (hsucceed : Succeed io s before) (hfailed : (io.callback e (after io s before)).1 ≠ .ok)
    (behind : List Entry) :
    (runCallbacks io s (before ++ e :: behind)).err ≠ .ok ∧
      (runCallbacks io s (before ++ e :: behind)).service = after io s (before ++ [e]) := by
  induction before generalizing s with
  | nil =>
    have hfailed : (io.callback e s).1 ≠ .ok := hfailed
    rw [List.nil_append, runCallbacks_cons_failed hfailed]
    exact ⟨hfailed, rfl⟩
  | cons d before ih =>
    obtain ⟨hok, hrest⟩ := hsucceed
    rw [List.cons_append, runCallbacks_cons_ok hok]
    exact ih hrest hfailed

/-! ## Turning the rails off -/

theorem applyRail_off (io : RebootIo) (s : Service) (rail : Rail) :
    let r := s.rails rail
    let off := applyRail (s.set rail { r with override := .forceOff, refcount := 0 }) rail io
    off.1 = s.set rail ⟨0, .forceOff, decide (Stuck io s rail)⟩ ∧
      (off.2 = .ok ↔ ((s.rails rail).enabled = true →
        firstError io.answers (switchCalls s rail false) = .ok ∧ io.railPost rail = .ok)) := by
  dsimp only
  unfold applyRail applyLocked
  simp only [Service.set_same, effectiveEnabled, switchCalls_set]
  cases henabled : (s.rails rail).enabled with
  | false => simp [Stuck, henabled]
  | true =>
    by_cases herr : firstError io.answers (switchCalls s rail false) = .ok
    · simp [Stuck, henabled, herr, Service.setEnabled, Service.set]
    · simp [Stuck, henabled, herr]

theorem setRailOff_fst (io : RebootIo) (acc : Service × EspErr) (rail : Rail) :
    (setRailOff io acc rail).1 = acc.1.set rail ⟨0, .forceOff, decide (Stuck io acc.1 rail)⟩ :=
  (applyRail_off io acc.1 rail).1

theorem setRailOff_snd (io : RebootIo) (acc : Service × EspErr) (rail : Rail) :
    (setRailOff io acc rail).2 = .ok ↔ acc.2 = .ok ∧ ((acc.1.rails rail).enabled = true →
      firstError io.answers (switchCalls acc.1 rail false) = .ok ∧ io.railPost rail = .ok) := by
  rw [← (applyRail_off io acc.1 rail).2]
  unfold setRailOff
  dsimp only
  split
  · next h => exact iff_of_false h.2 (fun hok => h.2 hok.2)
  · next h =>
    constructor
    · intro hacc
      refine ⟨hacc, ?_⟩
      by_contra hne
      exact h ⟨hacc, hne⟩
    · exact And.left

/-- Turning the rails off makes the same of every rail, and fails when one of them cannot be
switched off or its event cannot be posted. -/
theorem setAllRailsOff_spec (io : RebootIo) (s : Service) :
    (∀ rail, (setAllRailsOff io s).1.rails rail = ⟨0, .forceOff, decide (Stuck io s rail)⟩) ∧
      ((setAllRailsOff io s).2 = .ok ↔ SwitchesOff io s) := by
  have hfst := setRailOff_fst io (s, .ok) .dac
  have hled : ∀ state, Stuck io (s.set .dac state) .led ↔ Stuck io s .led := by
    intro state
    rw [Stuck, Service.set_other s (by decide), switchCalls_set, Stuck]
  constructor
  · intro rail
    change (setRailOff io (setRailOff io (s, .ok) .dac) .led).1.rails rail = _
    rw [setRailOff_fst, hfst]
    cases rail with
    | dac => rw [Service.set_other _ (by decide), Service.set_same]
    | led => rw [Service.set_same, decide_eq_decide.mpr (hled _)]
  · change (setRailOff io (setRailOff io (s, .ok) .dac) .led).2 = .ok ↔ _
    rw [setRailOff_snd, setRailOff_snd, hfst, Service.set_other s (by decide), switchCalls_set]
    constructor
    · rintro ⟨⟨-, hdac⟩, hled⟩ rail
      cases rail with
      | dac => exact hdac
      | led => exact hled
    · intro h
      exact ⟨⟨rfl, h .dac⟩, h .led⟩

/-! ## Reboots -/

theorem runShutdownCallbacks_posted {io : RebootIo} (h : io.shutdownPost = .ok) (s : State) :
    runShutdownCallbacks io s = runCallbacks io s.service s.callbacks := by
  rw [runShutdownCallbacks, if_neg (not_not.mpr h)]

/-- A reboot past its callbacks. -/
theorem rebootWith_called (action : PendingAction) (io : RebootIo) (s : State) :
    (rebootWith action io s).called = (runShutdownCallbacks io s).called := by
  unfold rebootWith
  dsimp only
  split
  · rfl
  · split
    · rfl
    · rfl

theorem rebootWith_unposted {action : PendingAction} {io : RebootIo} {s : State}
    (h : io.shutdownPost ≠ .ok) :
    rebootWith action io s = ⟨io.shutdownPost, s, []⟩ := by
  have hran : runShutdownCallbacks io s = ⟨io.shutdownPost, s.service, []⟩ := by
    rw [runShutdownCallbacks, if_pos h]
  unfold rebootWith
  rw [hran, if_pos h]

theorem rebootWith_failed {action : PendingAction} {io : RebootIo} {s : State}
    (hpost : io.shutdownPost = .ok) (h : (runCallbacks io s.service s.callbacks).err ≠ .ok) :
    (rebootWith action io s).err = (runCallbacks io s.service s.callbacks).err ∧
      (rebootWith action io s).state.service =
        (runCallbacks io s.service s.callbacks).service := by
  unfold rebootWith
  rw [runShutdownCallbacks_posted hpost, if_pos h]
  exact ⟨rfl, rfl⟩

theorem rebootWith_passed {action : PendingAction} {io : RebootIo} {s : State}
    (hpost : io.shutdownPost = .ok) (h : (runCallbacks io s.service s.callbacks).err = .ok) :
    ((rebootWith action io s).err = .ok ↔
      SwitchesOff io (runCallbacks io s.service s.callbacks).service ∧ s.pending = none) ∧
      (rebootWith action io s).state.service =
        (setAllRailsOff io (runCallbacks io s.service s.callbacks).service).1 := by
  obtain ⟨-, hoff⟩ := setAllRailsOff_spec io (runCallbacks io s.service s.callbacks).service
  unfold rebootWith
  rw [runShutdownCallbacks_posted hpost, if_neg (not_not.mpr h), ← hoff]
  dsimp only
  split
  · next herr => exact ⟨iff_of_false herr (fun hok => herr hok.1), rfl⟩
  · next herr =>
    have herr := not_not.mp herr
    unfold schedulePendingAction
    dsimp only
    split
    · next hpending => exact ⟨iff_of_false (by simp) (fun hok => hpending hok.2), rfl⟩
    · next hpending => exact ⟨iff_of_true rfl ⟨herr, not_not.mp hpending⟩, rfl⟩

/-- The condition, as what the run of the callbacks leaves. -/
theorem atomic_iff {io : RebootIo} {s : State} (hpost : io.shutdownPost = .ok) :
    Atomic s io ↔
      ((runCallbacks io s.service s.callbacks).err ≠ .ok →
        (runCallbacks io s.service s.callbacks).service.rails = s.service.rails) ∧
      ((runCallbacks io s.service s.callbacks).err = .ok →
        SwitchesOff io (runCallbacks io s.service s.callbacks).service ∧ s.pending = none ∨
          OffBefore io s.service (runCallbacks io s.service s.callbacks).service) := by
  obtain ⟨herr, hleft⟩ := runCallbacks_ok_iff io s.service s.callbacks
  unfold Atomic
  rw [forall_prop_of_true hpost, ne_eq, herr]
  refine and_congr ⟨fun h hne => ?_, fun h before e behind hsplit hsucceed hfailed => ?_⟩
    (forall_congr' fun hsucceed => by rw [hleft hsucceed])
  · obtain ⟨before, e, behind, hsplit, hsucceed, hfailed⟩ := exists_failure hne
    have hrails := h before e behind hsplit hsucceed hfailed
    rwa [hsplit, (runCallbacks_failed hsucceed hfailed behind).2]
  · obtain ⟨hne, hservice⟩ := runCallbacks_failed hsucceed hfailed behind
    rw [← hsplit] at hne hservice
    rw [← hservice]
    exact h fun hall => hne (herr.mpr hall)

/-- A reboot that returns an error has left the rails as they were exactly under the
condition. -/
theorem rebootWith_kept_iff (action : PendingAction) (io : RebootIo) (s : State) :
    ((rebootWith action io s).err ≠ .ok →
      (rebootWith action io s).state.service.rails = s.service.rails) ↔ Atomic s io := by
  by_cases hpost : io.shutdownPost = .ok
  swap
  · rw [rebootWith_unposted hpost]
    exact iff_of_true (fun _ => rfl) (fun h => absurd h hpost)
  rw [atomic_iff hpost]
  by_cases hran : (runCallbacks io s.service s.callbacks).err = .ok
  · obtain ⟨herr, hservice⟩ := @rebootWith_passed action io s hpost hran
    have hrails : (rebootWith action io s).state.service.rails = s.service.rails ↔
        OffBefore io s.service (runCallbacks io s.service s.callbacks).service := by
      rw [hservice, funext_iff]
      refine forall_congr' fun rail => ?_
      rw [(setAllRailsOff_spec io _).1 rail, eq_comm]
    rw [hrails, ne_eq, herr]
    constructor
    · intro h
      refine ⟨fun hne => absurd hran hne, fun _ => ?_⟩
      by_cases hoff : SwitchesOff io (runCallbacks io s.service s.callbacks).service ∧
          s.pending = none
      · exact .inl hoff
      · exact .inr (h hoff)
    · rintro ⟨-, h⟩ hnot
      exact (h hran).resolve_left hnot
  · obtain ⟨herr, hservice⟩ := @rebootWith_failed action io s hpost hran
    rw [herr, hservice]
    constructor
    · intro h
      exact ⟨fun _ => h hran, fun hok => absurd hok hran⟩
    · rintro ⟨h, -⟩ _
      exact h hran

/-- A callback that fails is the last one called, and the reboot returns its error. -/
theorem rebootWith_callbackFailed {action : PendingAction} {io : RebootIo} {s : State}
    (hpost : io.shutdownPost = .ok) {c : Entry × EspErr}
    (hmem : c ∈ (rebootWith action io s).called) (hfailed : c.2 ≠ .ok) :
    (rebootWith action io s).err = c.2 ∧ (rebootWith action io s).state.service =
      after io s.service ((rebootWith action io s).called.map Prod.fst) := by
  rw [rebootWith_called, runShutdownCallbacks_posted hpost] at hmem ⊢
  obtain ⟨hservice, herr, -⟩ := runCallbacks_left io s.service s.callbacks
  have herr := herr c hmem hfailed
  have hran : (runCallbacks io s.service s.callbacks).err ≠ .ok := by
    rw [herr]
    exact hfailed
  obtain ⟨hreturned, hleft⟩ := @rebootWith_failed action io s hpost hran
  rw [hreturned, hleft]
  exact ⟨herr, hservice⟩

theorem rebootWith_allPassed {action : PendingAction} {io : RebootIo} {s : State}
    (hpost : io.shutdownPost = .ok)
    (hall : ∀ c ∈ (rebootWith action io s).called, c.2 = .ok) :
    (rebootWith action io s).state.service =
      (setAllRailsOff io (after io s.service s.callbacks)).1 := by
  obtain ⟨herr, hleft⟩ := runCallbacks_ok_iff io s.service s.callbacks
  rw [rebootWith_called, runShutdownCallbacks_posted hpost] at hall
  have hsucceed := herr.mp ((runCallbacks_left io s.service s.callbacks).2.2 hall)
  rw [(@rebootWith_passed action io s hpost (herr.mpr hsucceed)).2, hleft hsucceed]

theorem reboots_iff (action : PendingAction) (io : RebootIo) (s : State) :
    Reboots io s (rebootWith action io s) ↔ Atomic s io := by
  rw [← rebootWith_kept_iff action io s]
  refine ⟨Reboots.railsKept, fun hkept => ⟨?_, ?_, ?_, ?_, hkept⟩⟩
  · intro hpost
    rw [rebootWith_called, runShutdownCallbacks_posted hpost]
    exact runCallbacks_inTurn io s.service s.callbacks
  · intro c hmem hfailed
    by_cases hpost : io.shutdownPost = .ok
    · exact rebootWith_callbackFailed hpost hmem hfailed
    · rw [rebootWith_unposted hpost] at hmem
      cases hmem
  · exact fun hpost => rebootWith_allPassed hpost
  · intro hpost
    rw [rebootWith_unposted hpost]
    exact ⟨rfl, hpost⟩

/-! ## Runs -/

theorem rebootWith_callbacks (action : PendingAction) (io : RebootIo) (s : State) :
    (rebootWith action io s).state.callbacks = s.callbacks ∧
      (rebootWith action io s).state.registered = s.registered := by
  unfold rebootWith schedulePendingAction
  dsimp only
  split
  · exact ⟨rfl, rfl⟩
  · split
    · exact ⟨rfl, rfl⟩
    · split
      · exact ⟨rfl, rfl⟩
      · exact ⟨rfl, rfl⟩

theorem sorted_initial : Sorted initial := ⟨.nil, fun _ => rfl, .nil⟩

theorem Sorted.of_same {s t : State} (h : Sorted s) (hcallbacks : t.callbacks = s.callbacks)
    (hregistered : t.registered = s.registered) : Sorted t where
  priorities := hcallbacks ▸ h.priorities
  registration := by
    rw [hcallbacks, hregistered]
    exact h.registration
  once := hcallbacks ▸ h.once

theorem sorted_step (s : State) (a : Action) (t : State) (h : Sorted s)
    (ht : step s a = some t) : Sorted t := by
  cases a with
  | register callback userCtx priority =>
    cases ht
    exact sorted_register h callback userCtx priority
  | reboot io =>
    cases ht
    obtain ⟨hcallbacks, hregistered⟩ := rebootWith_callbacks .reboot io s
    exact h.of_same hcallbacks hregistered
  | rebootToDownload io =>
    cases ht
    obtain ⟨hcallbacks, hregistered⟩ := rebootWith_callbacks .download io s
    exact h.of_same hcallbacks hregistered
  | processOnce deadlineReached =>
    cases ht
    unfold Shutdown.processOnce
    split
    · exact sorted_initial
    · exact h
  | call op answers =>
    cases ht
    exact h.of_same rfl rfl
  | bind channel prepareOff =>
    cases ht
    exact h.of_same rfl rfl

theorem sequenced_iff (s : State) (a : Action) : Sequenced s a ↔ Undone s a := by
  cases a with
  | register callback userCtx priority =>
    exact iff_of_true (register_rejected s callback userCtx priority) trivial
  | reboot io => exact reboots_iff .reboot io s
  | rebootToDownload io => exact reboots_iff .download io s
  | processOnce deadlineReached => exact Iff.rfl
  | call op answers => exact Iff.rfl
  | bind channel prepareOff => exact Iff.rfl

/-- **Shutdown sequencing.** In every run the callbacks are sorted, and every registration
and every reboot of a run keeps what it owes exactly when no reboot of the run fails with
something of it done. -/
theorem shutdown_sequenced_iff (as : List Action) :
    ((∀ pre t, pre <+: as → run step initial pre = some t → Sorted t) ∧
      Along step Sequenced initial as) ↔ Along step Undone initial as := by
  have hsorted : ∀ pre t, pre <+: as → run step initial pre = some t → Sorted t := by
    intro pre t _ ht
    exact run_invariant (C := fun _ _ => True) (fun s a t h _ ht => sorted_step s a t h ht)
      sorted_initial (along_true pre) ht
  rw [and_iff_right hsorted]
  constructor
  · exact Along.imp fun s a h => (sequenced_iff s a).mp h
  · exact Along.imp fun s a h => (sequenced_iff s a).mpr h

/-- Everything a reboot calls succeeds, and its callbacks leave the rails alone. -/
def smoothIo : RebootIo := ⟨.ok, fun _ s => (.ok, s), fun _ => .ok, fun _ => .ok⟩

/-- The LED rail is requested, and the device told to reboot; before the restart it is
requested and told to reboot once more. -/
def rebootedTwice : List Action :=
  [.call (.request .led) fun _ => .ok, .reboot smoothIo,
    .call (.setOverride .led .forceOn) fun _ => .ok, .reboot smoothIo]

theorem second_reboot_not_sequenced : ¬ Along step Sequenced initial rebootedTwice := by
  intro h
  have hreboots := (((h.2 _ rfl).2 _ rfl).2 _ rfl).1
  have hrails := congrFun (Reboots.railsKept hreboots (by decide)) .led
  exact absurd hrails (by decide)

end Jukeboy.Power.Shutdown
