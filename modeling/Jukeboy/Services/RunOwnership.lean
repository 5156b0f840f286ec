import Mathlib.Data.List.Nodup
import Jukeboy.Services.ScriptRuns

/-! # One owner for the run context

The worker reads `detach_on_finish` after it has given the completion, and a caller of
`script_service_start` copies its result after it has queued its run. Where no other
caller comes in between the first two, and the worker does not come in between the second,
the context belongs to one run at a time. -/
namespace Jukeboy.Services.ScriptRuns

open Jukeboy.Base Jukeboy.Base.Runs

variable {ω : Type} {calls : Callers} {s t : State ω}

/-! ## The condition -/

/-- No caller of `script_service_start` sets `detach_on_finish` while the worker is about to
read it for a run that was waited for, and the worker releases the context of no caller that
has still to copy its result. -/
def Orderly (calls : Callers) (s : State ω) : Action ω → Prop
  | .caller c _ => s.pcs c = .loaded → calls.kind c = .start →
      ∀ d, s.worker = .checking d → calls.kind d ≠ .run
  | .worker .. => ∀ c, s.worker = .resetting c → s.pcs c ≠ .queued

/-! ## What is claimed -/

/-- The context belongs to the caller's run: acquired, and not released on its behalf. -/
def Holding (s : State ω) (c : Nat) : Prop :=
  s.pcs c ≠ .idle ∧ s.pcs c ≠ .rejected ∧ c ∉ s.released

def Worker.caller : Worker → Option Nat
  | .waiting | .woken => none
  | .running c | .executing c | .finishing c | .giving c => some c
  | .checking c | .releasing c | .resetting c => some c

def Action.isWorker : Action ω → Bool
  | .worker .. => true
  | .caller .. => false

/-- The run context has one owner, and every run is its caller's own. -/
structure OneOwner (calls : Callers) (s : State ω) : Prop where
  oneHolder : ∀ c d, Holding s c → Holding s d → c = d
  releasedOnce : s.released.Nodup
  /-- A run that is over has been released. -/
  releasedWhenOver : ∀ c ret, s.pcs c = .done ret → s.pending ≠ some c →
    s.worker.caller ≠ some c → c ∈ s.released
  /-- A run that was accepted is to be executed, or has been. -/
  executed : ∀ c, s.assigned c ≠ none → s.pending = some c ∨ s.worker = .running c ∨
    c ∈ s.executed.map Execution.caller
  /-- The worker has a turn to take while it has not been. -/
  workerGoesOn : ∀ c, s.assigned c ≠ none → c ∉ s.executed.map Execution.caller →
    ∀ outcome err, workerStep outcome err s ≠ none
  /-- Four turns of the worker execute it, whatever the callers do in between. -/
  executedSoon : ∀ c, s.assigned c ≠ none → ∀ as t, Along (step calls) (Orderly calls) s as →
    run (step calls) s as = some t → 4 ≤ as.countP Action.isWorker →
      c ∈ t.executed.map Execution.caller
  executedOnce : (s.executed.map Execution.caller).Nodup
  executedOwn : ∀ x ∈ s.executed, x = ⟨x.caller, (calls.request x.caller).path,
    some (calls.request x.caller).argv, some (calls.request x.caller).file⟩
  runReturns : ∀ c ret id, calls.kind c = .run → s.pcs c = .done ret → s.assigned c = some id →
    ret.runId = id ∧ ∃ outcome, s.finished c = some (outcome, ret.err) ∧
      ret.outcome = some outcome
  startReturns : ∀ c ret, calls.kind c = .start → s.pcs c = .done ret → ret.err = .ok →
    s.assigned c = some ret.runId

/-! ## Where the context is -/

/-- The caller is between its acquisition and its release. -/
def Pc.holds : Pc ω → Bool
  | .idle | .rejected | .done _ => false
  | _ => true

/-- The caller has not queued its run. -/
def Pc.early : Pc ω → Bool
  | .idle | .rejected | .acquired | .named | .resolved | .argued | .loaded | .ready => true
  | _ => false

/-- The worker is with no run, or with one that its caller takes over. -/
def Away (calls : Callers) (s : State ω) : Prop :=
  s.worker = .waiting ∨ s.worker = .woken ∨
    ∃ d, s.worker = .checking d ∧ calls.kind d = .run ∧ s.context.detachOnFinish = false

def Flags (s : State ω) (b : Bool) : Prop := s.busy = b ∧ s.active = b

/-- The caller has handed its run over. -/
def Handed (calls : Callers) (s : State ω) (c : Nat) : Prop :=
  s.pcs c = .queued ∨ calls.kind c = .start ∧ ∃ ret, s.pcs c = .done ret

/-- The context holds what the caller has passed, as far as the caller is. -/
structure Filled (calls : Callers) (s : State ω) (c : Nat) : Prop where
  path : s.pcs c ≠ .acquired → s.context.path = (calls.request c).path
  argv : s.pcs c = .argued ∨ s.pcs c = .loaded ∨ s.pcs c = .ready →
    s.context.argv = some (calls.request c).argv
  script : s.pcs c = .loaded ∨ s.pcs c = .ready → s.context.script = some (calls.request c).file
  detach : s.pcs c = .ready → s.context.detachOnFinish = decide (calls.kind c = Kind.start)

/-- The context is that of a queued run. -/
structure Loaded (calls : Callers) (s : State ω) (c : Nat) : Prop where
  path : s.context.path = (calls.request c).path
  argv : s.context.argv = some (calls.request c).argv
  script : s.context.script = some (calls.request c).file

/-- The context of a run that was accepted. -/
structure Accepted (calls : Callers) (s : State ω) (c : Nat) : Prop where
  handed : Handed calls s c
  runId : s.assigned c = some s.context.runId
  detach : s.context.detachOnFinish = decide (calls.kind c = Kind.start)

/-- The context holds the outcome of the caller's run. -/
def Outcome (s : State ω) (c : Nat) : Prop :=
  ∃ outcome, s.finished c = some (outcome, s.context.err) ∧ s.context.outcome = some outcome

/-- The run context with its owner, from its acquisition to its release. -/
inductive Stage (calls : Callers) (s : State ω) : Option Nat → Prop where
  | free (hflags : Flags s false) (hpending : s.pending = none) (haway : Away calls s) :
      Stage calls s none
  | preparing (c : Nat) (hflags : Flags s false) (hpending : s.pending = none)
      (haway : Away calls s) (hholds : (s.pcs c).holds = true) (hearly : (s.pcs c).early = true)
      (hfilled : Filled calls s c) (hcompletion : s.context.completion ≠ some true) :
      Stage calls s (some c)
  | queued (c : Nat) (hflags : Flags s true) (hpending : s.pending = some c)
      (haway : Away calls s) (haccepted : Accepted calls s c) (hloaded : Loaded calls s c)
      (hcompletion : s.context.completion ≠ some true) : Stage calls s (some c)
  | working (c : Nat) (hflags : Flags s true) (hpending : s.pending = none)
      (hworker : s.worker = .running c ∧ Loaded calls s c ∨ s.worker = .executing c ∨
        s.worker = .finishing c ∧ Outcome s c) (haccepted : Accepted calls s c)
      (hcompletion : s.context.completion ≠ some true) : Stage calls s (some c)
  | giving (c : Nat) (hflags : Flags s false) (hpending : s.pending = none)
      (hworker : s.worker = .giving c) (haccepted : Accepted calls s c) (houtcome : Outcome s c)
      (hcompletion : s.context.completion ≠ some true) : Stage calls s (some c)
  /-- The worker is to release the context. -/
  | detached (c : Nat) (hflags : Flags s false) (hpending : s.pending = none)
      (hworker : s.worker = .checking c ∨ s.worker = .releasing c ∨ s.worker = .resetting c)
      (hkind : calls.kind c = .start) (haccepted : Accepted calls s c) : Stage calls s (some c)
  /-- The caller takes the run over, or has failed to prepare one, and releases the context. -/
  | returning (c : Nat) (hflags : Flags s false) (hpending : s.pending = none)
      (haway : Away calls s)
      (hpc : (s.pcs c = .queued ∧ calls.kind c = .run ∧ s.context.completion = some true ∨
        s.pcs c = .completed) ∧ s.assigned c = some s.context.runId ∧ Outcome s c ∨
        ∃ ret, s.pcs c = .releasing ret ∨ s.pcs c = .resetting ret) : Stage calls s (some c)

/-- What the caller returns is what became of its run, if it had one. -/
def RetOk (calls : Callers) (s : State ω) (c : Nat) (ret : Ret ω) : Prop :=
  match calls.kind c with
  | .run => ∀ id, s.assigned c = some id →
      ret.runId = id ∧ ∃ outcome, s.finished c = some (outcome, ret.err) ∧
        ret.outcome = some outcome
  | .start => ret.err = .ok → s.assigned c = some ret.runId

/-- What has happened, and whose the context is after it. -/
structure History (calls : Callers) (s : State ω) (owner : Option Nat) : Prop where
  holding : ∀ c, Holding s c ↔ owner = some c
  acquired : ∀ c ∈ s.released, s.pcs c ≠ .idle ∧ s.pcs c ≠ .rejected
  releasedOnce : s.released.Nodup
  early : ∀ c, (s.pcs c).early = true → s.assigned c = none
  ret : ∀ c ret, s.pcs c = .releasing ret ∨ s.pcs c = .resetting ret ∨ s.pcs c = .done ret →
    RetOk calls s c ret
  accepted : ∀ c, s.assigned c ≠ none → s.pending = some c ∨ s.worker = .running c ∨
    c ∈ s.executed.map Execution.caller
  toExecute : ∀ c, s.pending = some c ∨ s.worker = .running c →
    c ∉ s.executed.map Execution.caller
  executedAssigned : ∀ c ∈ s.executed.map Execution.caller, s.assigned c ≠ none
  executedOnce : (s.executed.map Execution.caller).Nodup
  executedOwn : ∀ x ∈ s.executed, x = ⟨x.caller, (calls.request x.caller).path,
    some (calls.request x.caller).argv, some (calls.request x.caller).file⟩

structure Inv (calls : Callers) (s : State ω) (owner : Option Nat) : Prop where
  stage : Stage calls s owner
  inUse : s.inUse = owner.isSome
  /-- Who is between acquisition and release owns the context. -/
  holder : ∀ c, (s.pcs c).holds = true → owner = some c
  history : History calls s owner

theorem inv_initial : Inv calls (initial : State ω) none where
  stage := .free ⟨rfl, rfl⟩ rfl (.inl rfl)
  inUse := rfl
  holder c h := by cases h
  history := {
    holding := fun c => ⟨fun h => absurd rfl h.1, fun h => by cases h⟩
    acquired := fun c h => by cases h
    releasedOnce := .nil
    early := fun _ _ => rfl
    ret := fun c ret h => by simp [initial] at h
    accepted := fun c h => absurd rfl h
    toExecute := fun c _ h => by cases h
    executedAssigned := fun c h => by cases h
    executedOnce := .nil
    executedOwn := fun x h => by cases h }

/-! ## Moves of a caller -/

@[simp] theorem goto_same (s : State ω) (c : Nat) (pc : Pc ω) : (s.goto c pc).pcs c = pc :=
  Function.update_self ..

theorem goto_other (s : State ω) {c d : Nat} (h : d ≠ c) (pc : Pc ω) :
    (s.goto c pc).pcs d = s.pcs d := Function.update_of_ne h ..

/-- The owner moves on; nobody else is between acquisition and release. -/
theorem holder_goto {c : Nat} (h : ∀ d, (s.pcs d).holds = true → some c = some d) (pc : Pc ω) :
    ∀ d, ((s.goto c pc).pcs d).holds = true → some c = some d := by
  intro d hd
  by_cases hdc : d = c
  · rw [hdc]
  · rw [goto_other s hdc] at hd
    exact h d hd

theorem History.move {owner : Option Nat} (h : History calls s owner) {c : Nat} {pc : Pc ω}
    {context : Context ω} (hfrom : s.pcs c ≠ .idle ∧ s.pcs c ≠ .rejected)
    (hto : pc ≠ .idle ∧ pc ≠ .rejected) (hearly : pc.early = true → (s.pcs c).early = true)
    (hret : ∀ ret, pc = .releasing ret ∨ pc = .resetting ret ∨ pc = .done ret →
      RetOk calls s c ret) :
    History calls ({ s with context := context }.goto c pc) owner := by
  refine { h with holding := ?_, acquired := ?_, early := ?_, ret := ?_ }
  · intro d
    rw [← h.holding d]
    unfold Holding
    by_cases hdc : d = c
    · subst hdc
      simp only [goto_same, ne_eq, hto.1, hto.2, hfrom.1, hfrom.2]
      exact Iff.rfl
    · rw [goto_other _ hdc]
      exact Iff.rfl
  · intro d hd
    by_cases hdc : d = c
    · subst hdc
      rwa [goto_same]
    · rw [goto_other _ hdc]
      exact h.acquired d hd
  · intro d hd
    by_cases hdc : d = c
    · subst hdc
      rw [goto_same] at hd
      exact h.early d (hearly hd)
    · rw [goto_other _ hdc] at hd
      exact h.early d hd
  · intro d ret hd
    by_cases hdc : d = c
    · subst hdc
      rw [goto_same] at hd
      exact hret ret hd
    · rw [goto_other _ hdc] at hd
      exact h.ret d ret hd

/-! ## What the stage says of a caller and of the worker -/

theorem Handed.early {c : Nat} (h : Handed calls s c) : (s.pcs c).early = false := by
  obtain hpc | ⟨-, ret, hpc⟩ := h
  · rw [hpc]
    rfl
  · rw [hpc]
    rfl

namespace Stage

theorem of_early {c : Nat} (h : Stage calls s (some c)) (hearly : (s.pcs c).early = true) :
    Flags s false ∧ s.pending = none ∧ Away calls s ∧ Filled calls s c ∧
      s.context.completion ≠ some true := by
  have hnot : ¬ Handed calls s c := by
    intro hhanded
    rw [hhanded.early] at hearly
    cases hearly
  cases h with
  | preparing _ hflags hpending haway _ _ hfilled hcompletion =>
    exact ⟨hflags, hpending, haway, hfilled, hcompletion⟩
  | queued _ _ _ _ haccepted => exact absurd haccepted.handed hnot
  | working _ _ _ _ haccepted => exact absurd haccepted.handed hnot
  | giving _ _ _ _ haccepted => exact absurd haccepted.handed hnot
  | detached _ _ _ _ _ haccepted => exact absurd haccepted.handed hnot
  | returning _ _ _ _ hpc =>
    obtain ⟨⟨hpc, -⟩ | hpc, -⟩ | ⟨ret, hpc | hpc⟩ := hpc
    all_goals
      rw [hpc] at hearly
      cases hearly

/-- A caller past its wait, or at its release. -/
theorem of_returning {c : Nat} (h : Stage calls s (some c))
    (hpc : s.pcs c = .completed ∨ ∃ ret, s.pcs c = .releasing ret ∨ s.pcs c = .resetting ret) :
    Flags s false ∧ s.pending = none ∧ Away calls s ∧
      (s.pcs c = .completed → s.assigned c = some s.context.runId ∧ Outcome s c) := by
  have hnot : ¬ Handed calls s c := by
    rintro (hqueued | ⟨-, ret, hdone⟩)
    · simp [hqueued] at hpc
    · simp [hdone] at hpc
  cases h with
  | preparing _ _ _ _ _ hearly =>
    obtain hpc | ⟨ret, hpc | hpc⟩ := hpc
    all_goals
      rw [hpc] at hearly
      cases hearly
  | queued _ _ _ _ haccepted => exact absurd haccepted.handed hnot
  | working _ _ _ _ haccepted => exact absurd haccepted.handed hnot
  | giving _ _ _ _ haccepted => exact absurd haccepted.handed hnot
  | detached _ _ _ _ _ haccepted => exact absurd haccepted.handed hnot
  | returning _ hflags hpending haway hreturning =>
    refine ⟨hflags, hpending, haway, ?_⟩
    intro hcompleted
    obtain ⟨-, hresult⟩ | ⟨ret, hother | hother⟩ := hreturning
    · exact hresult
    · rw [hother] at hcompleted
      cases hcompleted
    · rw [hother] at hcompleted
      cases hcompleted

/-- A caller of `script_service_run` whose completion is there. -/
theorem of_completion {c : Nat} (h : Stage calls s (some c)) (hkind : calls.kind c = .run)
    (hpc : s.pcs c = .queued) (hcompletion : s.context.completion = some true) :
    Flags s false ∧ s.pending = none ∧ Away calls s ∧ s.assigned c = some s.context.runId ∧
      Outcome s c := by
  cases h with
  | preparing _ _ _ _ _ _ _ hno => exact absurd hcompletion hno
  | queued _ _ _ _ _ _ hno => exact absurd hcompletion hno
  | working _ _ _ _ _ hno => exact absurd hcompletion hno
  | giving _ _ _ _ _ _ hno => exact absurd hcompletion hno
  | detached _ _ _ _ hstart =>
    rw [hkind] at hstart
    cases hstart
  | returning _ hflags hpending haway hreturning =>
    obtain ⟨-, hrunId, houtcome⟩ | ⟨ret, hother | hother⟩ := hreturning
    · exact ⟨hflags, hpending, haway, hrunId, houtcome⟩
    · rw [hpc] at hother
      cases hother
    · rw [hpc] at hother
      cases hother

/-- The worker turns to nothing from nothing. -/
theorem turn {owner : Option Nat} (h : Stage calls s owner) (hfrom : Away calls s)
    (requestSem : Bool) {worker : Worker} (hto : worker = .waiting ∨ worker = .woken) :
    Stage calls { s with requestSem := requestSem, worker := worker } owner := by
  have haway : Away calls { s with requestSem := requestSem, worker := worker } :=
    hto.imp id Or.inl
  cases h with
  | free hflags hpending => exact .free hflags hpending haway
  | preparing c hflags hpending _ hholds hearly hfilled hcompletion =>
    exact .preparing c hflags hpending haway hholds hearly
      ⟨hfilled.path, hfilled.argv, hfilled.script, hfilled.detach⟩ hcompletion
  | queued c hflags hpending _ haccepted hloaded hcompletion =>
    exact .queued c hflags hpending haway ⟨haccepted.handed, haccepted.runId, haccepted.detach⟩
      ⟨hloaded.path, hloaded.argv, hloaded.script⟩ hcompletion
  | working c _ _ hworker =>
    obtain ⟨hworker, -⟩ | hworker | ⟨hworker, -⟩ := hworker
    all_goals simp [Away, hworker] at hfrom
  | giving c _ _ hworker => simp [Away, hworker] at hfrom
  | detached c _ _ hworker hkind =>
    obtain hworker | hworker | hworker := hworker
    all_goals simp [Away, hworker, hkind] at hfrom
  | returning c hflags hpending _ hpc => exact .returning c hflags hpending haway hpc

end Stage

/-! ## The caller's steps -/

theorem Pc.acquired_of_holds {pc : Pc ω} (h : pc.holds = true) : pc ≠ .idle ∧ pc ≠ .rejected := by
  constructor
  all_goals
    rintro rfl
    cases h

/-- The owner goes on with its preparation, or gives it up. -/
theorem inv_prepare {c : Nat} (h : Inv calls s (some c)) (hholds : (s.pcs c).holds = true)
    (hearly : (s.pcs c).early = true) {context : Context ω} {pc : Pc ω}
    (hpc : pc.holds = true ∧ pc.early = true)
    (hfilled : Filled calls ({ s with context := context }.goto c pc) c)
    (hdetach : ∀ d, s.worker = .checking d → calls.kind d = .run →
      s.context.detachOnFinish = false → context.detachOnFinish = false)
    (hcompletion : context.completion ≠ some true) :
    Inv calls ({ s with context := context }.goto c pc) (some c) := by
  obtain ⟨hflags, hpending, haway, -, -⟩ := h.stage.of_early hearly
  have hfrom := Pc.acquired_of_holds hholds
  have hto := Pc.acquired_of_holds hpc.1
  refine ⟨?_, h.inUse, holder_goto h.holder pc, ?_⟩
  · refine .preparing c hflags hpending ?_ ?_ ?_ hfilled hcompletion
    · obtain hw | hw | ⟨d, hw, hkind, hd⟩ := haway
      · exact .inl hw
      · exact .inr (.inl hw)
      · exact .inr (.inr ⟨d, hw, hkind, hdetach d hw hkind hd⟩)
    · rw [goto_same]
      exact hpc.1
    · rw [goto_same]
      exact hpc.2
  · refine h.history.move hfrom hto (fun _ => hearly) ?_
    rintro ret (rfl | rfl | rfl)
    all_goals cases hpc.2

/-- The owner's preparation fails. -/
theorem inv_giveUp {c : Nat} (h : Inv calls s (some c)) (hholds : (s.pcs c).holds = true)
    (hearly : (s.pcs c).early = true) {err : EspErr} (herr : err ≠ .ok) :
    Inv calls (s.goto c (.releasing (s.copy err))) (some c) := by
  obtain ⟨hflags, hpending, haway, -, -⟩ := h.stage.of_early hearly
  have hfrom := Pc.acquired_of_holds hholds
  refine ⟨?_, h.inUse, holder_goto h.holder _, ?_⟩
  · exact .returning c hflags hpending haway (.inr ⟨_, .inl (goto_same ..)⟩)
  · refine h.history.move hfrom (by simp) (fun h => by cases h) ?_
    rintro ret (hret | hret | hret)
    · cases hret
      have hnone := h.history.early c hearly
      unfold RetOk
      split
      · intro id hid
        rw [hnone] at hid
        cases hid
      · exact fun hok => absurd hok herr
    · cases hret
    · cases hret

theorem Away.zero (h : Away calls s) : Away calls { s with context := .zero } := by
  obtain hw | hw | ⟨d, hw, hkind, -⟩ := h
  · exact .inl hw
  · exact .inr (.inl hw)
  · exact .inr (.inr ⟨d, hw, hkind, rfl⟩)

/-- A caller that is not the owner changes nothing that the owner is in. -/
theorem Stage.other {owner : Option Nat} (h : Stage calls s owner) {c : Nat}
    (hc : ∀ d, owner = some d → d ≠ c) (pc : Pc ω) : Stage calls (s.goto c pc) owner := by
  have hpcs : ∀ d, owner = some d → (s.goto c pc).pcs d = s.pcs d :=
    fun d hd => goto_other s (hc d hd) pc
  have haccepted : ∀ d, owner = some d → Accepted calls s d → Accepted calls (s.goto c pc) d := by
    intro d hd ha
    refine ⟨?_, ha.runId, ha.detach⟩
    unfold Handed
    rw [hpcs d hd]
    exact ha.handed
  cases h with
  | free hflags hpending haway => exact .free hflags hpending haway
  | preparing d hflags hpending haway hholds hearly hfilled hcompletion =>
    have hd := hpcs d rfl
    refine .preparing d hflags hpending haway (hd ▸ hholds) (hd ▸ hearly) ?_ hcompletion
    exact ⟨hd ▸ hfilled.path, hd ▸ hfilled.argv, hd ▸ hfilled.script, hd ▸ hfilled.detach⟩
  | queued d hflags hpending haway ha hloaded hcompletion =>
    exact .queued d hflags hpending haway (haccepted d rfl ha)
      ⟨hloaded.path, hloaded.argv, hloaded.script⟩ hcompletion
  | working d hflags hpending hworker ha hcompletion =>
    refine .working d hflags hpending ?_ (haccepted d rfl ha) hcompletion
    exact hworker.imp (fun hr => ⟨hr.1, ⟨hr.2.path, hr.2.argv, hr.2.script⟩⟩) id
  | giving d hflags hpending hworker ha houtcome hcompletion =>
    exact .giving d hflags hpending hworker (haccepted d rfl ha) houtcome hcompletion
  | detached d hflags hpending hworker hkind ha =>
    exact .detached d hflags hpending hworker hkind (haccepted d rfl ha)
  | returning d hflags hpending haway hpc =>
    refine .returning d hflags hpending haway ?_
    rw [hpcs d rfl]
    exact hpc

/-- A caller calls, and acquires the context or is turned away. -/
theorem History.arrive {owner owner' : Option Nat} (h : History calls s owner) {c : Nat}
    (hc : s.pcs c = .idle) {pc : Pc ω} (hpc : pc.early = true ∧ pc ≠ .idle)
    (hown : owner' = some c ↔ pc ≠ .rejected)
    (hothers : ∀ d, d ≠ c → (owner = some d ↔ owner' = some d)) {context : Context ω}
    {inUse : Bool} :
    History calls ({ s with context := context, inUse := inUse }.goto c pc) owner' := by
  have hfresh : c ∉ s.released := fun hmem => (h.acquired c hmem).1 hc
  refine { h with holding := ?_, acquired := ?_, early := ?_, ret := ?_ }
  · intro d
    by_cases hdc : d = c
    · subst hdc
      rw [hown]
      constructor
      · rintro ⟨-, hne, -⟩
        rwa [goto_same] at hne
      · intro hne
        exact ⟨by rw [goto_same]; exact hpc.2, by rw [goto_same]; exact hne, hfresh⟩
    · rw [← hothers d hdc, ← h.holding d, Holding, goto_other _ hdc]
      exact Iff.rfl
  · intro d hd
    have hdc : d ≠ c := by
      rintro rfl
      exact hfresh hd
    rw [goto_other _ hdc]
    exact h.acquired d hd
  · intro d hd
    by_cases hdc : d = c
    · subst hdc
      exact h.early d (by rw [hc]; rfl)
    · rw [goto_other _ hdc] at hd
      exact h.early d hd
  · intro d ret hd
    by_cases hdc : d = c
    · subst hdc
      rw [goto_same] at hd
      obtain rfl | rfl | rfl := hd
      all_goals cases hpc.1
    · rw [goto_other _ hdc] at hd
      exact h.ret d ret hd

theorem inv_acquire {owner : Option Nat} (h : Inv calls s owner) {c : Nat}
    (hc : s.pcs c = .idle) : ∃ owner', Inv calls (acquireContext s c) owner' := by
  have hnot : ∀ d, owner = some d → d ≠ c := by
    rintro d rfl rfl
    exact (h.history.holding d).mpr rfl |>.1 hc
  unfold acquireContext
  split
  · refine ⟨owner, h.stage.other hnot _, h.inUse, ?_, ?_⟩
    · intro d hd
      by_cases hdc : d = c
      · rw [hdc, goto_same] at hd
        cases hd
      · rw [goto_other s hdc] at hd
        exact h.holder d hd
    · refine h.history.arrive hc ⟨rfl, by simp⟩ ?_ (fun d _ => Iff.rfl)
      exact iff_of_false (fun howner => hnot c howner rfl) (fun hne => hne rfl)
  · next hguard =>
    have hguard : ((s.inUse = false ∧ s.busy = false) ∧ s.active = false) ∧ s.pending = none := by
      simpa using hguard
    obtain ⟨⟨⟨hinUse, hbusy⟩, hactive⟩, hpending⟩ := hguard
    have hnone : owner = none := by
      rw [h.inUse] at hinUse
      simpa using hinUse
    subst hnone
    have haway : Away calls s := by
      cases h.stage with
      | free _ _ haway => exact haway
    refine ⟨some c, ?_, rfl, ?_, ?_⟩
    · refine .preparing c ⟨hbusy, hactive⟩ hpending haway.zero ?_ ?_ ?_
        (by simp [State.goto, Context.zero])
      · rw [goto_same]
        rfl
      · rw [goto_same]
        rfl
      · constructor
        all_goals simp
    · refine holder_goto (fun d hd => ?_) _
      have := h.holder d hd
      cases this
    · refine h.history.arrive hc ⟨rfl, by simp⟩ (by simp) ?_
      intro d hdc
      simpa using Ne.symm hdc

/-- What a caller returns does not depend on other callers' runs. -/
theorem RetOk.of_same {c : Nat} {ret : Ret ω} (h : RetOk calls s c ret)
    (hassigned : t.assigned c = s.assigned c) (hfinished : t.finished c = s.finished c) :
    RetOk calls t c ret := by
  unfold RetOk at h ⊢
  rw [hassigned, hfinished]
  exact h

theorem History.enqueue {owner : Option Nat} (h : History calls s owner) {c : Nat}
    (hc : s.pcs c = .ready) (hpending : s.pending = none) (hworker : ∀ d, s.worker ≠ .running d)
    {id next : Nat} {context : Context ω} {busy active requestSem : Bool} :
    History calls ({ s with
      nextRunId := next, context := context, busy := busy, active := active
      requestSem := requestSem, pending := some c
      assigned := Function.update s.assigned c (some id) }.goto c .queued) owner := by
  have hnone := h.early c (by rw [hc]; rfl)
  refine { h with
    holding := ?_, acquired := ?_, early := ?_, ret := ?_
    accepted := ?_, toExecute := ?_, executedAssigned := ?_ }
  · intro d
    rw [← h.holding d]
    by_cases hdc : d = c
    · subst hdc
      simp only [Holding, goto_same, hc, ne_eq, reduceCtorEq, not_false_eq_true, true_and]
      exact Iff.rfl
    · rw [Holding, goto_other _ hdc]
      exact Iff.rfl
  · intro d hd
    by_cases hdc : d = c
    · subst hdc
      simp
    · rw [goto_other _ hdc]
      exact h.acquired d hd
  · intro d hd
    have hdc : d ≠ c := by
      rintro rfl
      rw [goto_same] at hd
      cases hd
    rw [goto_other _ hdc] at hd
    exact (Function.update_of_ne hdc ..).trans (h.early d hd)
  · intro d ret hd
    have hdc : d ≠ c := by
      rintro rfl
      simp at hd
    rw [goto_other _ hdc] at hd
    exact (h.ret d ret hd).of_same (Function.update_of_ne hdc ..) rfl
  · intro d hd
    by_cases hdc : d = c
    · subst hdc
      exact .inl rfl
    · right
      refine (h.accepted d ?_).resolve_left (by rw [hpending]; simp)
      change Function.update s.assigned c (some id) d ≠ none at hd
      rwa [Function.update_of_ne hdc] at hd
  · rintro d (hd | hd) hmem
    · cases hd
      exact h.executedAssigned c hmem hnone
    · exact hworker d hd
  · intro d hd
    by_cases hdc : d = c
    · subst hdc
      simp [State.goto]
    · change Function.update s.assigned c (some id) d ≠ none
      rw [Function.update_of_ne hdc]
      exact h.executedAssigned d hd

/-- The owner queues its run. -/
theorem inv_queue {c : Nat} (h : Inv calls s (some c)) (hc : s.pcs c = .ready) :
    Inv calls (queueContext s c) (some c) := by
  obtain ⟨⟨hbusy, hactive⟩, hpending, haway, hfilled, hcompletion⟩ :=
    h.stage.of_early (by rw [hc]; rfl)
  have hnone := h.history.early c (by rw [hc]; rfl)
  have hnotRunning : ∀ d, s.worker ≠ .running d := by
    intro d hw
    simp [Away, hw] at haway
  rw [queueContext, if_neg (by simp [hbusy, hactive, hpending])]
  refine ⟨?_, h.inUse, holder_goto h.holder _, ?_⟩
  · refine .queued c ⟨rfl, rfl⟩ rfl haway ?_ ?_ hcompletion
    · refine ⟨.inl (goto_same ..), ?_, hfilled.detach hc⟩
      simp [State.goto]
    · exact ⟨hfilled.path (by rw [hc]; simp), hfilled.argv (.inr (.inr hc)),
        hfilled.script (.inr hc)⟩
  · exact h.history.enqueue hc hpending hnotRunning

/-- A caller of `script_service_start` copies its result and returns; the worker has its
context. -/
theorem inv_copy {c : Nat} (h : Inv calls s (some c)) (hkind : calls.kind c = .start)
    (hc : s.pcs c = .queued) : Inv calls (s.goto c (.done (s.copy .ok))) (some c) := by
  have hdone : Handed calls (s.goto c (.done (s.copy .ok))) c :=
    .inr ⟨hkind, _, goto_same ..⟩
  have hmoved : s.assigned c = some s.context.runId ∧
      Stage calls (s.goto c (.done (s.copy .ok))) (some c) := by
    cases h.stage with
    | preparing _ _ _ _ _ hearly =>
      rw [hc] at hearly
      cases hearly
    | queued _ hflags hpending haway ha hloaded hcompletion =>
      exact ⟨ha.runId, .queued c hflags hpending haway ⟨hdone, ha.runId, ha.detach⟩
        ⟨hloaded.path, hloaded.argv, hloaded.script⟩ hcompletion⟩
    | working _ hflags hpending hworker ha hcompletion =>
      refine ⟨ha.runId, .working c hflags hpending ?_ ⟨hdone, ha.runId, ha.detach⟩ hcompletion⟩
      exact hworker.imp (fun hr => ⟨hr.1, ⟨hr.2.path, hr.2.argv, hr.2.script⟩⟩) id
    | giving _ hflags hpending hworker ha houtcome hcompletion =>
      exact ⟨ha.runId, .giving c hflags hpending hworker ⟨hdone, ha.runId, ha.detach⟩ houtcome
        hcompletion⟩
    | detached _ hflags hpending hworker hkind ha =>
      exact ⟨ha.runId, .detached c hflags hpending hworker hkind ⟨hdone, ha.runId, ha.detach⟩⟩
    | returning _ _ _ _ hpc =>
      simp [hc, hkind] at hpc
  obtain ⟨hrunId, hstage⟩ := hmoved
  refine ⟨hstage, h.inUse, holder_goto h.holder _, ?_⟩
  refine h.history.move (by simp [hc]) (by simp) (fun h => by cases h) ?_
  rintro ret (hret | hret | hret)
  · cases hret
  · cases hret
  · cases hret
    unfold RetOk
    rw [hkind]
    exact fun _ => hrunId

/-- A caller of `script_service_run` takes its completion. -/
theorem inv_take {c : Nat} (h : Inv calls s (some c)) (hkind : calls.kind c = .run)
    (hc : s.pcs c = .queued) (hcompletion : s.context.completion = some true) :
    Inv calls ({ s with
      context := { s.context with completion := some false } }.goto c .completed) (some c) := by
  obtain ⟨hflags, hpending, haway, hrunId, houtcome⟩ := h.stage.of_completion hkind hc hcompletion
  refine ⟨?_, h.inUse, holder_goto h.holder _, ?_⟩
  · exact .returning c hflags hpending haway (.inl ⟨.inr (goto_same ..), hrunId, houtcome⟩)
  · refine h.history.move (by simp [hc]) (by simp) (fun h => by cases h) ?_
    rintro ret (hret | hret | hret)
    all_goals cases hret

/-- It copies what its run has left. -/
theorem inv_completed {c : Nat} (h : Inv calls s (some c)) (hc : s.pcs c = .completed) :
    Inv calls (s.goto c (.releasing (s.copy s.context.err))) (some c) := by
  obtain ⟨hflags, hpending, haway, hresult⟩ := h.stage.of_returning (.inl hc)
  obtain ⟨hrunId, outcome, hfinished, houtcome⟩ := hresult hc
  refine ⟨?_, h.inUse, holder_goto h.holder _, ?_⟩
  · exact .returning c hflags hpending haway (.inr ⟨_, .inl (goto_same ..)⟩)
  · refine h.history.move (by simp [hc]) (by simp) (fun h => by cases h) ?_
    rintro ret (hret | hret | hret)
    · cases hret
      unfold RetOk
      split
      · intro id hid
        rw [hrunId] at hid
        cases hid
        exact ⟨rfl, outcome, hfinished, houtcome⟩
      · exact fun _ => hrunId
    · cases hret
    · cases hret

/-- The first half of a caller's release. -/
theorem inv_releasing {c : Nat} (h : Inv calls s (some c)) {ret : Ret ω}
    (hc : s.pcs c = .releasing ret) :
    Inv calls ((releaseContextResources s).goto c (.resetting ret)) (some c) := by
  obtain ⟨hflags, hpending, haway, -⟩ := h.stage.of_returning (.inr ⟨ret, .inl hc⟩)
  refine ⟨?_, h.inUse, holder_goto h.holder _, ?_⟩
  · exact .returning c hflags hpending haway (.inr ⟨ret, .inr (goto_same ..)⟩)
  · refine h.history.move (by simp [hc]) (by simp) (fun h => by cases h) ?_
    rintro ret' (hret | hret | hret)
    · cases hret
    · cases hret
      exact h.history.ret c ret (.inl hc)
    · cases hret

/-- The context is released on its owner's behalf. -/
theorem History.release {c : Nat} (h : History calls s (some c)) {context : Context ω}
    {inUse : Bool} {worker : Worker} (hfrom : ∀ d, s.worker ≠ .running d)
    (hto : ∀ d, worker ≠ .running d) :
    History calls { s with
      context := context, inUse := inUse, worker := worker
      released := s.released ++ [c] } none := by
  obtain ⟨hidle, hrejected, hfresh⟩ := (h.holding c).mpr rfl
  refine { h with
    holding := ?_, acquired := ?_, releasedOnce := ?_
    accepted := ?_, toExecute := ?_ }
  · intro d
    refine iff_of_false ?_ (by simp)
    rintro ⟨hd, hd', hmem⟩
    rw [List.mem_append, not_or] at hmem
    have heq := (h.holding d).mp ⟨hd, hd', hmem.1⟩
    cases heq
    exact hmem.2 (List.mem_singleton.mpr rfl)
  · intro d hd
    obtain hd | hd := List.mem_append.mp hd
    · exact h.acquired d hd
    · rw [List.mem_singleton.mp hd]
      exact ⟨hidle, hrejected⟩
  · refine List.nodup_append.mpr ⟨h.releasedOnce, List.nodup_singleton c, ?_⟩
    intro a ha b hb
    rw [List.mem_singleton.mp hb]
    rintro rfl
    exact hfresh ha
  · intro d hd
    obtain hpending | hrunning | hmem := h.accepted d hd
    · exact .inl hpending
    · exact absurd hrunning (hfrom d)
    · exact .inr (.inr hmem)
  · rintro d (hd | hd)
    · exact h.toExecute d (.inl hd)
    · exact absurd hd (hto d)

/-- The second half of a caller's release. -/
theorem inv_resetting {c : Nat} (h : Inv calls s (some c)) {ret : Ret ω}
    (hc : s.pcs c = .resetting ret) : Inv calls ((resetContext s c).goto c (.done ret)) none := by
  obtain ⟨hflags, hpending, haway, -⟩ := h.stage.of_returning (.inr ⟨ret, .inr hc⟩)
  have hworker : ∀ d, s.worker ≠ .running d := by
    intro d hw
    simp [Away, hw] at haway
  refine ⟨.free hflags hpending haway.zero, rfl, ?_, ?_⟩
  · intro d hd
    by_cases hdc : d = c
    · rw [hdc, goto_same] at hd
      cases hd
    · rw [goto_other _ hdc] at hd
      have := h.holder d hd
      cases this
      exact absurd rfl hdc
  · have hreleased := @History.release _ _ _ c h.history .zero false s.worker hworker hworker
    refine hreleased.move (by simp [hc]) (by simp) (fun h => by cases h) ?_
    rintro ret' (hret | hret | hret)
    · cases hret
    · cases hret
    · cases hret
      exact h.history.ret c ret (.inr (.inl hc))

/-! ## The worker's steps -/

/-- The worker turns to nothing; what has happened is the same. -/
theorem History.turn {owner : Option Nat} (h : History calls s owner) {requestSem : Bool}
    {worker : Worker} (hfrom : ∀ d, s.worker ≠ .running d) (hto : ∀ d, worker ≠ .running d) :
    History calls { s with requestSem := requestSem, worker := worker } owner := by
  refine { h with accepted := ?_, toExecute := ?_ }
  · intro d hd
    obtain hpending | hrunning | hmem := h.accepted d hd
    · exact .inl hpending
    · exact absurd hrunning (hfrom d)
    · exact .inr (.inr hmem)
  · rintro d (hd | hd)
    · exact h.toExecute d (.inl hd)
    · exact absurd hd (hto d)

theorem inv_turn {owner : Option Nat} (h : Inv calls s owner) (hfrom : Away calls s)
    (requestSem : Bool) {worker : Worker} (hto : worker = .waiting ∨ worker = .woken) :
    Inv calls { s with requestSem := requestSem, worker := worker } owner := by
  refine ⟨h.stage.turn hfrom requestSem hto, h.inUse, h.holder, h.history.turn ?_ ?_⟩
  · intro d hw
    simp [Away, hw] at hfrom
  · rintro d rfl
    simp at hto

/-- The worker takes the pending run. -/
theorem inv_begin {owner : Option Nat} (h : Inv calls s owner) {c : Nat}
    (hpending : s.pending = some c) (hw : s.worker = .woken) :
    Inv calls { s with pending := none, worker := .running c } owner := by
  refine ⟨?_, h.inUse, h.holder, ?_⟩
  · cases h.stage with
    | queued d hflags hpend _ ha hloaded hcompletion =>
      rw [hpend] at hpending
      cases hpending
      exact .working c hflags rfl (.inl ⟨rfl, ⟨hloaded.path, hloaded.argv, hloaded.script⟩⟩)
        ⟨ha.handed, ha.runId, ha.detach⟩ hcompletion
    | free _ hpend => rw [hpend] at hpending; cases hpending
    | preparing _ _ hpend => rw [hpend] at hpending; cases hpending
    | working _ _ hpend => rw [hpend] at hpending; cases hpending
    | giving _ _ hpend => rw [hpend] at hpending; cases hpending
    | detached _ _ hpend => rw [hpend] at hpending; cases hpending
    | returning _ _ hpend => rw [hpend] at hpending; cases hpending
  · have hh := h.history
    refine { hh with accepted := ?_, toExecute := ?_ }
    · intro d hd
      obtain heq | hrunning | hmem := hh.accepted d hd
      · rw [hpending] at heq
        cases heq
        exact .inr (.inl rfl)
      · rw [hw] at hrunning
        cases hrunning
      · exact .inr (.inr hmem)
    · rintro d (hd | hd)
      · cases hd
      · cases hd
        exact hh.toExecute c (.inl hpending)

/-- Where the worker is with a run that it has not completed, the context is that run's. -/
theorem Stage.of_working {owner : Option Nat} (h : Stage calls s owner) {c : Nat}
    (hw : s.worker = .running c ∨ s.worker = .executing c ∨ s.worker = .finishing c) :
    owner = some c ∧ Flags s true ∧ s.pending = none ∧ Accepted calls s c ∧
      (s.worker = .running c → Loaded calls s c) ∧ (s.worker = .finishing c → Outcome s c) ∧
      s.context.completion ≠ some true := by
  have hnot : ¬ Away calls s := by
    rintro (haway | haway | ⟨d, haway, -⟩)
    all_goals simp [haway] at hw
  cases h with
  | free _ _ haway => exact absurd haway hnot
  | preparing _ _ _ haway => exact absurd haway hnot
  | queued _ _ _ haway => exact absurd haway hnot
  | returning _ _ _ haway => exact absurd haway hnot
  | giving _ _ _ hworker => simp [hworker] at hw
  | detached _ _ _ hworker =>
    obtain hworker | hworker | hworker := hworker
    all_goals simp [hworker] at hw
  | working d hflags hpending hworker ha hcompletion =>
    obtain ⟨hworker, hloaded⟩ | hworker | ⟨hworker, houtcome⟩ := hworker
    · have hdc : d = c := by simpa [hworker] using hw
      subst hdc
      exact ⟨rfl, hflags, hpending, ha, fun _ => hloaded, fun h => by simp [hworker] at h,
        hcompletion⟩
    · have hdc : d = c := by simpa [hworker] using hw
      subst hdc
      exact ⟨rfl, hflags, hpending, ha, fun h => (by simp [hworker] at h),
        fun h => (by simp [hworker] at h), hcompletion⟩
    · have hdc : d = c := by simpa [hworker] using hw
      subst hdc
      exact ⟨rfl, hflags, hpending, ha, fun h => (by simp [hworker] at h), fun _ => houtcome,
        hcompletion⟩

/-- The worker executes the run: of the owner, for the first time, with what it passed. -/
theorem inv_execute {owner : Option Nat} (h : Inv calls s owner) {c : Nat}
    (hw : s.worker = .running c) :
    Inv calls { s with
      executed := s.executed ++ [⟨c, s.context.path, s.context.argv, s.context.script⟩]
      worker := .executing c } owner := by
  obtain ⟨rfl, hflags, hpending, ha, hloaded, -, hcompletion⟩ := h.stage.of_working (.inl hw)
  have hloaded := hloaded hw
  have hh := h.history
  refine ⟨?_, h.inUse, h.holder, ?_⟩
  · exact .working c hflags hpending (.inr (.inl rfl)) ⟨ha.handed, ha.runId, ha.detach⟩ hcompletion
  have hmap : ∀ (x : Execution) d, d ∈ (s.executed ++ [x]).map Execution.caller ↔
      d ∈ s.executed.map Execution.caller ∨ d = x.caller := by
    intro x d
    rw [List.map_append, List.mem_append, List.map_singleton, List.mem_singleton]
  refine { hh with
    accepted := ?_, toExecute := ?_, executedAssigned := ?_, executedOnce := ?_
    executedOwn := ?_ }
  · intro d hd
    obtain heq | hrunning | hmem := hh.accepted d hd
    · exact .inl heq
    · rw [hw] at hrunning
      cases hrunning
      exact .inr (.inr ((hmap _ c).mpr (.inr rfl)))
    · exact .inr (.inr ((hmap _ d).mpr (.inl hmem)))
  · rintro d (hd | hd)
    · exact absurd (hpending.symm.trans hd) (by simp)
    · cases hd
  · intro d hd
    obtain hd | hd := (hmap _ d).mp hd
    · exact hh.executedAssigned d hd
    · have hdc : d = c := hd
      change s.assigned d ≠ none
      rw [hdc, ha.runId]
      simp
  · rw [List.map_append, List.nodup_append]
    refine ⟨hh.executedOnce, List.nodup_singleton c, ?_⟩
    intro a hmem b hb
    rw [List.map_singleton, List.mem_singleton] at hb
    have hbc : b = c := hb
    rw [hbc]
    rintro rfl
    exact hh.toExecute a (.inr hw) hmem
  · intro x hx
    obtain hx | hx := List.mem_append.mp hx
    · exact hh.executedOwn x hx
    · rw [List.mem_singleton.mp hx, hloaded.path, hloaded.argv, hloaded.script]

/-- The run is over, and leaves its outcome in the context. -/
theorem inv_finish {owner : Option Nat} (h : Inv calls s owner) {c : Nat}
    (hw : s.worker = .executing c) (outcome : ω) (err : EspErr) :
    Inv calls { s with
      context := { s.context with script := none, outcome := some outcome, err := err }
      finished := Function.update s.finished c (some (outcome, err))
      worker := .finishing c } owner := by
  obtain ⟨rfl, hflags, hpending, ha, -, -, hcompletion⟩ := h.stage.of_working (.inr (.inl hw))
  have hh := h.history
  refine ⟨?_, h.inUse, h.holder, ?_⟩
  · refine .working c hflags hpending (.inr (.inr ⟨rfl, outcome, ?_, rfl⟩))
      ⟨ha.handed, ha.runId, ha.detach⟩ hcompletion
    exact Function.update_self ..
  refine { hh with ret := ?_, accepted := ?_, toExecute := ?_ }
  · intro d ret hd
    have hret := hh.ret d ret hd
    by_cases hdc : d = c
    · -- a caller that is back while its run is with the worker has not waited for it
      subst hdc
      obtain hqueued | ⟨hkind, -⟩ := ha.handed
      · simp [hqueued] at hd
      · unfold RetOk at hret ⊢
        rw [hkind] at hret ⊢
        exact hret
    · exact hret.of_same rfl (Function.update_of_ne hdc ..)
  · intro d hd
    obtain heq | hrunning | hmem := hh.accepted d hd
    · exact .inl heq
    · rw [hw] at hrunning
      cases hrunning
    · exact .inr (.inr hmem)
  · rintro d (hd | hd)
    · exact hh.toExecute d (.inl hd)
    · cases hd

theorem inv_finishing {owner : Option Nat} (h : Inv calls s owner) {c : Nat}
    (hw : s.worker = .finishing c) :
    Inv calls { s with active := false, busy := false, worker := .giving c } owner := by
  obtain ⟨rfl, hflags, hpending, ha, -, houtcome, hcompletion⟩ :=
    h.stage.of_working (.inr (.inr hw))
  have hturned := @History.turn _ _ _ _ h.history s.requestSem (.giving c)
    (by simp [hw]) (by simp)
  exact ⟨.giving c ⟨rfl, rfl⟩ hpending rfl ⟨ha.handed, ha.runId, ha.detach⟩ (houtcome hw)
    hcompletion, h.inUse, h.holder, { hturned with }⟩

/-- The completion is given: a caller of `script_service_run` takes the context over. -/
theorem inv_give {owner : Option Nat} (h : Inv calls s owner) {c : Nat}
    (hw : s.worker = .giving c) :
    Inv calls { s with
      context := { s.context with completion := some true }, worker := .checking c } owner := by
  have hturned := @History.turn _ _ _ _ h.history s.requestSem (.checking c)
    (by simp [hw]) (by simp)
  refine ⟨?_, h.inUse, h.holder, { hturned with }⟩
  have hnot : ¬ Away calls s := by
    simp [Away, hw]
  cases h.stage with
  | free _ _ haway => exact absurd haway hnot
  | preparing _ _ _ haway => exact absurd haway hnot
  | queued _ _ _ haway => exact absurd haway hnot
  | returning _ _ _ haway => exact absurd haway hnot
  | working _ _ _ hworker => simp [hw] at hworker
  | detached _ _ _ hworker => simp [hw] at hworker
  | giving d hflags hpending hworker ha houtcome =>
    rw [hw] at hworker
    cases hworker
    cases hkind : calls.kind c with
    | start =>
      exact .detached c hflags hpending (.inl rfl) hkind ⟨ha.handed, ha.runId, ha.detach⟩
    | run =>
      have hqueued : s.pcs c = .queued := by
        obtain hqueued | ⟨hstart, -⟩ := ha.handed
        · exact hqueued
        · rw [hkind] at hstart
          cases hstart
      refine .returning c hflags hpending (.inr (.inr ⟨c, rfl, hkind, ?_⟩))
        (.inl ⟨.inl ⟨hqueued, hkind, rfl⟩, ha.runId, houtcome⟩)
      change s.context.detachOnFinish = false
      rw [ha.detach, hkind]
      rfl

/-- Where the worker is past the completion of a run of `script_service_start`, the context
is that run's. -/
theorem Stage.of_detached {owner : Option Nat} (h : Stage calls s owner) {c : Nat}
    (hw : s.worker = .checking c ∧ calls.kind c = .start ∨ s.worker = .releasing c ∨
      s.worker = .resetting c) :
    owner = some c ∧ Flags s false ∧ s.pending = none ∧ calls.kind c = .start ∧
      Accepted calls s c := by
  have hnot : ¬ Away calls s := by
    rintro (haway | haway | ⟨d, haway, hkind, -⟩)
    · simp [haway] at hw
    · simp [haway] at hw
    · simp only [haway, Worker.checking.injEq, reduceCtorEq, or_false] at hw
      rw [← hw.1, hkind] at hw
      cases hw.2
  cases h with
  | free _ _ haway => exact absurd haway hnot
  | preparing _ _ _ haway => exact absurd haway hnot
  | queued _ _ _ haway => exact absurd haway hnot
  | returning _ _ _ haway => exact absurd haway hnot
  | working _ _ _ hworker =>
    obtain ⟨hworker, -⟩ | hworker | ⟨hworker, -⟩ := hworker
    all_goals simp [hworker] at hw
  | giving _ _ _ hworker => simp [hworker] at hw
  | detached d hflags hpending hworker hkind ha =>
    have hdc : d = c := by
      obtain hworker | hworker | hworker := hworker
      all_goals
        simp only [hworker, Worker.checking.injEq, Worker.releasing.injEq,
          Worker.resetting.injEq, reduceCtorEq, false_and, false_or, or_false] at hw
      · exact hw.1
      · exact hw
      · exact hw
    subst hdc
    exact ⟨rfl, hflags, hpending, hkind, ha⟩

theorem inv_check {owner : Option Nat} (h : Inv calls s owner) {c : Nat}
    (hw : s.worker = .checking c) :
    Inv calls { s with
      worker := if s.context.detachOnFinish then .releasing c else .waiting } owner := by
  cases hkind : calls.kind c with
  | start =>
    obtain ⟨rfl, hflags, hpending, -, ha⟩ := h.stage.of_detached (.inl ⟨hw, hkind⟩)
    rw [if_pos (by rw [ha.detach, hkind]; rfl)]
    have hturned := @History.turn _ _ _ _ h.history s.requestSem (.releasing c)
      (by simp [hw]) (by simp)
    exact ⟨.detached c hflags hpending (.inr (.inl rfl)) hkind ⟨ha.handed, ha.runId, ha.detach⟩,
      h.inUse, h.holder, { hturned with }⟩
  | run =>
    have haway : Away calls s := by
      cases h.stage with
      | free _ _ haway => exact haway
      | preparing _ _ _ haway => exact haway
      | queued _ _ _ haway => exact haway
      | returning _ _ _ haway => exact haway
      | working _ _ _ hworker => simp [hw] at hworker
      | giving _ _ _ hworker => simp [hw] at hworker
      | detached d _ _ hworker hstart =>
        simp only [hw, Worker.checking.injEq, reduceCtorEq, or_false] at hworker
        rw [← hworker, hkind] at hstart
        cases hstart
    have hdetach : s.context.detachOnFinish = false := by
      simpa [Away, hw, hkind] using haway
    rw [if_neg (by simp [hdetach])]
    exact inv_turn h haway s.requestSem (.inl rfl)

theorem inv_workerReleasing {owner : Option Nat} (h : Inv calls s owner) {c : Nat}
    (hw : s.worker = .releasing c) :
    Inv calls { releaseContextResources s with worker := .resetting c } owner := by
  obtain ⟨rfl, hflags, hpending, hkind, ha⟩ := h.stage.of_detached (.inr (.inl hw))
  have hturned := @History.turn _ _ _ _ h.history s.requestSem (.resetting c)
    (by simp [hw]) (by simp)
  exact ⟨.detached c hflags hpending (.inr (.inr rfl)) hkind ⟨ha.handed, ha.runId, ha.detach⟩,
    h.inUse, h.holder, { hturned with }⟩

theorem inv_workerResetting {owner : Option Nat} (h : Inv calls s owner) {c : Nat}
    (hw : s.worker = .resetting c) (hcopied : s.pcs c ≠ .queued) :
    Inv calls { resetContext s c with worker := .waiting } none := by
  obtain ⟨rfl, hflags, hpending, hkind, ha⟩ := h.stage.of_detached (.inr (.inr hw))
  refine ⟨.free hflags hpending (.inl rfl), rfl, ?_, ?_⟩
  · intro d hd
    have heq := h.holder d hd
    cases heq
    obtain hqueued | ⟨-, ret, hdone⟩ := ha.handed
    · exact absurd hqueued hcopied
    · change (s.pcs c).holds = true at hd
      rw [hdone] at hd
      cases hd
  · exact h.history.release (by simp [hw]) (by simp)

/-! ## Steps and runs -/

theorem inv_caller {owner : Option Nat} (h : Inv calls s owner) {c : Nat} {err : EspErr}
    (hC : Orderly calls s (.caller c err)) (ht : callerStep calls c err s = some t) :
    ∃ owner', Inv calls t owner' := by
  have hown : (s.pcs c).holds = true → owner = some c := h.holder c
  unfold callerStep at ht
  cases hc : s.pcs c with
  | idle =>
    rw [hc] at ht
    cases ht
    exact inv_acquire h hc
  | rejected => simp [hc] at ht
  | done ret => simp [hc] at ht
  | acquired =>
    obtain rfl := hown (by rw [hc]; rfl)
    rw [hc] at ht
    cases ht
    refine ⟨some c, inv_prepare h (by rw [hc]; rfl) (by rw [hc]; rfl) ⟨rfl, rfl⟩ ?_ ?_ (by simp)⟩
    · constructor
      all_goals simp [State.goto]
    · exact fun _ _ _ hd => hd
  | named =>
    obtain rfl := hown (by rw [hc]; rfl)
    obtain ⟨-, -, -, hfilled, hcompletion⟩ := h.stage.of_early (by rw [hc]; rfl)
    rw [hc] at ht
    dsimp only at ht
    split at ht
    · next herr =>
      cases ht
      exact ⟨some c, inv_giveUp h (by rw [hc]; rfl) (by rw [hc]; rfl) herr⟩
    · cases ht
      refine ⟨some c, @inv_prepare _ _ s c h (by rw [hc]; rfl) (by rw [hc]; rfl) s.context
        .resolved ⟨rfl, rfl⟩ ?_ (fun _ _ _ hd => hd) hcompletion⟩
      have hpath := hfilled.path (by simp [hc])
      constructor
      all_goals simp [State.goto, hpath]
  | resolved =>
    obtain rfl := hown (by rw [hc]; rfl)
    obtain ⟨-, -, -, hfilled, hcompletion⟩ := h.stage.of_early (by rw [hc]; rfl)
    rw [hc] at ht
    dsimp only at ht
    split at ht
    · cases ht
      exact ⟨some c, inv_giveUp h (by rw [hc]; rfl) (by rw [hc]; rfl) (by simp)⟩
    · cases ht
      refine ⟨some c, inv_prepare h (by rw [hc]; rfl) (by rw [hc]; rfl) ⟨rfl, rfl⟩ ?_
        (fun _ _ _ hd => hd) hcompletion⟩
      have hpath := hfilled.path (by simp [hc])
      constructor
      all_goals simp [State.goto, hpath]
  | argued =>
    obtain rfl := hown (by rw [hc]; rfl)
    obtain ⟨-, -, -, hfilled, hcompletion⟩ := h.stage.of_early (by rw [hc]; rfl)
    rw [hc] at ht
    dsimp only at ht
    split at ht
    · cases ht
      exact ⟨some c, inv_giveUp h (by rw [hc]; rfl) (by rw [hc]; rfl) (by simp)⟩
    · cases ht
      refine ⟨some c, inv_prepare h (by rw [hc]; rfl) (by rw [hc]; rfl) ⟨rfl, rfl⟩ ?_
        (fun _ _ _ hd => hd) hcompletion⟩
      have hpath := hfilled.path (by simp [hc])
      have hargv := hfilled.argv (.inl hc)
      constructor
      all_goals simp [State.goto, hpath, hargv]
  | loaded =>
    obtain rfl := hown (by rw [hc]; rfl)
    obtain ⟨-, -, -, hfilled, hcompletion⟩ := h.stage.of_early (by rw [hc]; rfl)
    rw [hc] at ht
    cases ht
    refine ⟨some c, inv_prepare h (by rw [hc]; rfl) (by rw [hc]; rfl) ⟨rfl, rfl⟩ ?_ ?_
      hcompletion⟩
    · have hpath := hfilled.path (by simp [hc])
      have hargv := hfilled.argv (.inr (.inl hc))
      have hscript := hfilled.script (.inl hc)
      constructor
      all_goals simp [State.goto, hpath, hargv, hscript]
    · -- the worker is about to read the flag, so this is no start
      intro d hw hrun _
      have hkind : calls.kind c ≠ .start := fun hstart => hC hc hstart d hw hrun
      simpa using hkind
  | ready =>
    obtain rfl := hown (by rw [hc]; rfl)
    rw [hc] at ht
    cases ht
    exact ⟨some c, inv_queue h hc⟩
  | queued =>
    obtain rfl := hown (by rw [hc]; rfl)
    rw [hc] at ht
    dsimp only at ht
    split at ht
    · next hkind =>
      cases ht
      exact ⟨some c, inv_copy h hkind hc⟩
    · next hkind =>
      split at ht
      · next hcompletion =>
        cases ht
        exact ⟨some c, inv_take h hkind hc hcompletion⟩
      · cases ht
  | completed =>
    obtain rfl := hown (by rw [hc]; rfl)
    rw [hc] at ht
    cases ht
    exact ⟨some c, inv_completed h hc⟩
  | releasing ret =>
    obtain rfl := hown (by rw [hc]; rfl)
    rw [hc] at ht
    cases ht
    exact ⟨some c, inv_releasing h hc⟩
  | resetting ret =>
    obtain rfl := hown (by rw [hc]; rfl)
    rw [hc] at ht
    cases ht
    exact ⟨none, inv_resetting h hc⟩

theorem inv_worker {owner : Option Nat} (h : Inv calls s owner) {outcome : ω} {err : EspErr}
    (hC : Orderly calls s (.worker outcome err)) (ht : workerStep outcome err s = some t) :
    ∃ owner', Inv calls t owner' := by
  unfold workerStep at ht
  cases hw : s.worker with
  | waiting =>
    simp only [hw, Option.ite_none_right_eq_some, Option.some.injEq] at ht
    obtain ⟨-, rfl⟩ := ht
    exact ⟨owner, inv_turn h (.inl hw) false (.inr rfl)⟩
  | woken =>
    simp only [hw] at ht
    split at ht
    · cases ht
      exact ⟨owner, inv_turn h (.inr (.inl hw)) s.requestSem (.inl rfl)⟩
    · next hpending =>
      cases ht
      exact ⟨owner, inv_begin h hpending hw⟩
  | running c =>
    simp only [hw, Option.some.injEq] at ht
    subst ht
    exact ⟨owner, inv_execute h hw⟩
  | executing c =>
    simp only [hw, Option.some.injEq] at ht
    subst ht
    exact ⟨owner, inv_finish h hw outcome err⟩
  | finishing c =>
    simp only [hw, Option.some.injEq] at ht
    subst ht
    exact ⟨owner, inv_finishing h hw⟩
  | giving c =>
    simp only [hw] at ht
    split at ht
    · cases ht
    · cases ht
      exact ⟨owner, inv_give h hw⟩
  | checking c =>
    simp only [hw, Option.some.injEq] at ht
    subst ht
    exact ⟨owner, inv_check h hw⟩
  | releasing c =>
    simp only [hw, Option.some.injEq] at ht
    subst ht
    exact ⟨owner, inv_workerReleasing h hw⟩
  | resetting c =>
    simp only [hw, Option.some.injEq] at ht
    subst ht
    exact ⟨none, inv_workerResetting h hw (hC c hw)⟩

theorem inv_step (s : State ω) (a : Action ω) (t : State ω) (h : ∃ owner, Inv calls s owner)
    (hC : Orderly calls s a) (ht : step calls s a = some t) : ∃ owner, Inv calls t owner := by
  obtain ⟨owner, h⟩ := h
  cases a with
  | caller c err => exact inv_caller h hC ht
  | worker outcome err => exact inv_worker h hC ht

/-! ## The worker gets to it -/

/-- The request of a pending run is given, or the worker has just taken it. -/
def Requested (s : State ω) : Prop :=
  s.pending ≠ none → s.worker = .woken ∨ s.requestSem = true

/-- What a step of a caller does to the worker and to what is queued for it. -/
theorem callerStep_queue {c : Nat} {err : EspErr} (ht : callerStep calls c err s = some t) :
    t.worker = s.worker ∧ t.executed = s.executed ∧
      (t.pending = s.pending ∧ t.requestSem = s.requestSem ∧ t.assigned = s.assigned ∨
        s.pending = none ∧ t.requestSem = true ∧ ∀ d, s.assigned d ≠ none → t.assigned d ≠ none) := by
  unfold callerStep at ht
  cases hc : s.pcs c with
  | idle =>
    rw [hc] at ht
    cases ht
    unfold acquireContext
    split
    · exact ⟨rfl, rfl, .inl ⟨rfl, rfl, rfl⟩⟩
    · exact ⟨rfl, rfl, .inl ⟨rfl, rfl, rfl⟩⟩
  | ready =>
    rw [hc] at ht
    cases ht
    unfold queueContext
    split
    · exact ⟨rfl, rfl, .inl ⟨rfl, rfl, rfl⟩⟩
    · next hguard =>
      have hpending : s.pending = none := by
        simp only [Bool.or_eq_true, Option.isSome_iff_ne_none, not_or, not_not] at hguard
        exact hguard.2
      refine ⟨rfl, rfl, .inr ⟨hpending, rfl, fun d hd => ?_⟩⟩
      by_cases hdc : d = c
      · subst hdc
        simp [State.goto]
      · exact (Function.update_of_ne hdc ..).trans_ne hd
  | queued =>
    rw [hc] at ht
    dsimp only at ht
    split at ht
    · cases ht
      exact ⟨rfl, rfl, .inl ⟨rfl, rfl, rfl⟩⟩
    · split at ht
      · cases ht
        exact ⟨rfl, rfl, .inl ⟨rfl, rfl, rfl⟩⟩
      · cases ht
  | named | resolved | argued =>
    rw [hc] at ht
    dsimp only at ht
    split at ht
    all_goals
      cases ht
      exact ⟨rfl, rfl, .inl ⟨rfl, rfl, rfl⟩⟩
  | acquired | loaded | completed | releasing | resetting =>
    rw [hc] at ht
    cases ht
    exact ⟨rfl, rfl, .inl ⟨rfl, rfl, rfl⟩⟩
  | rejected | done =>
    rw [hc] at ht
    cases ht

/-- What a turn of the worker does to what is queued for it. -/
theorem workerStep_queue {outcome : ω} {err : EspErr} (ht : workerStep outcome err s = some t) :
    t.assigned = s.assigned ∧ s.executed <+: t.executed ∧
      (s.worker = .waiting ∧ t.worker = .woken ∧ t.pending = s.pending ∨
        s.worker = .woken ∧ t.pending = none ∨
        s.worker ≠ .woken ∧ t.requestSem = s.requestSem ∧ t.pending = s.pending) := by
  unfold workerStep at ht
  cases hw : s.worker with
  | waiting =>
    simp only [hw, Option.ite_none_right_eq_some, Option.some.injEq] at ht
    obtain ⟨-, rfl⟩ := ht
    exact ⟨rfl, List.prefix_rfl, .inl ⟨rfl, rfl, rfl⟩⟩
  | woken =>
    simp only [hw] at ht
    split at ht
    all_goals
      cases ht
      refine ⟨rfl, List.prefix_rfl, .inr (.inl ⟨rfl, ?_⟩)⟩
    · assumption
    · rfl
  | giving c =>
    simp only [hw] at ht
    split at ht
    · cases ht
    · cases ht
      exact ⟨rfl, List.prefix_rfl, .inr (.inr ⟨by simp, rfl, rfl⟩)⟩
  | running c =>
    simp only [hw, Option.some.injEq] at ht
    subst ht
    exact ⟨rfl, List.prefix_append .., .inr (.inr ⟨by simp, rfl, rfl⟩)⟩
  | executing c | finishing c | checking c | releasing c | resetting c =>
    simp only [hw, Option.some.injEq] at ht
    subst ht
    exact ⟨rfl, List.prefix_rfl, .inr (.inr ⟨by simp, rfl, rfl⟩)⟩

theorem requested_step {a : Action ω} (h : Requested s) (ht : step calls s a = some t) :
    Requested t := by
  unfold Requested at h ⊢
  intro hpending
  cases a with
  | caller c err =>
    obtain ⟨hworker, -, ⟨hpend, hsem, -⟩ | ⟨-, hsem, -⟩⟩ := callerStep_queue ht
    · rw [hpend] at hpending
      rw [hworker, hsem]
      exact h hpending
    · exact .inr hsem
  | worker outcome err =>
    obtain ⟨-, -, ⟨-, hwoken, -⟩ | ⟨-, hnone⟩ | ⟨hnot, hsem, hpend⟩⟩ := workerStep_queue ht
    · exact .inl hwoken
    · exact absurd hnone hpending
    · rw [hpend] at hpending
      rw [hsem]
      exact .inr ((h hpending).resolve_left hnot)

theorem assigned_step {a : Action ω} {c : Nat} (h : s.assigned c ≠ none)
    (ht : step calls s a = some t) : t.assigned c ≠ none := by
  cases a with
  | caller d err =>
    obtain ⟨-, -, ⟨-, -, hsame⟩ | ⟨-, -, hkeep⟩⟩ := callerStep_queue ht
    · rwa [hsame]
    · exact hkeep c h
  | worker outcome err => rwa [(workerStep_queue ht).1]

theorem executed_step {a : Action ω} {c : Nat} (h : c ∈ s.executed.map Execution.caller)
    (ht : step calls s a = some t) : c ∈ t.executed.map Execution.caller := by
  cases a with
  | caller d err => rwa [(callerStep_queue ht).2.1]
  | worker outcome err => exact ((workerStep_queue ht).2.1.map _).subset h

/-- A run of the caller was accepted, and the worker has got word of what is pending. -/
structure Due (calls : Callers) (c : Nat) (s : State ω) : Prop where
  inv : ∃ owner, Inv calls s owner
  requested : Requested s
  assigned : s.assigned c ≠ none

theorem due_step {c : Nat} {a : Action ω} (h : Due calls c s) (hC : Orderly calls s a)
    (ht : step calls s a = some t) : Due calls c t :=
  ⟨inv_step s a t h.inv hC ht, requested_step h.requested ht, assigned_step h.assigned ht⟩

/-- The turns the worker is from the execution of what is pending. -/
def Worker.turns : Worker → Nat
  | .running _ => 1
  | .woken => 2
  | .waiting => 3
  | _ => 4

/-- Until the run is executed the worker has it, or it is pending and the worker is with none. -/
theorem Due.here {c : Nat} (h : Due calls c s) (hnot : c ∉ s.executed.map Execution.caller) :
    s.worker = .running c ∨ s.pending = some c ∧ Away calls s := by
  obtain ⟨owner, hinv⟩ := h.inv
  obtain hpending | hrunning | hmem := hinv.history.accepted c h.assigned
  · refine .inr ⟨hpending, ?_⟩
    cases hinv.stage with
    | queued _ _ _ haway => exact haway
    | free _ hnone | preparing _ _ hnone | working _ _ hnone | giving _ _ hnone
    | detached _ _ hnone | returning _ _ hnone =>
      rw [hnone] at hpending
      cases hpending
  · exact .inl hrunning
  · exact absurd hmem hnot

theorem Due.workerGoesOn {c : Nat} (h : Due calls c s)
    (hnot : c ∉ s.executed.map Execution.caller) (outcome : ω) (err : EspErr) :
    workerStep outcome err s ≠ none := by
  unfold workerStep
  obtain hw | ⟨hpending, hw | hw | ⟨d, hw, -⟩⟩ := h.here hnot
  · simp [hw]
  · have hsem : s.requestSem = true :=
      (h.requested (by simp [hpending])).resolve_left (by simp [hw])
    simp [hw, hsem]
  · simp [hw, hpending]
  · simp [hw]

/-- A step brings the worker nearer if it is the worker's, and else leaves it where it is. -/
theorem Due.nearer {c : Nat} {a : Action ω} (h : Due calls c s)
    (hnot : c ∉ s.executed.map Execution.caller) (ht : step calls s a = some t) :
    c ∈ t.executed.map Execution.caller ∨
      t.worker.turns + [a].countP Action.isWorker ≤ s.worker.turns := by
  cases a with
  | caller d err =>
    right
    rw [(callerStep_queue ht).1]
    exact Nat.le_refl _
  | worker outcome err =>
    change workerStep outcome err s = some t at ht
    unfold workerStep at ht
    obtain hw | ⟨hpending, hw | hw | ⟨d, hw, -, hdetach⟩⟩ := h.here hnot
    · simp only [hw, Option.some.injEq] at ht
      subst ht
      left
      simp
    · simp only [hw, Option.ite_none_right_eq_some, Option.some.injEq] at ht
      obtain ⟨-, rfl⟩ := ht
      right
      rw [hw]
      exact Nat.le_refl 3
    · simp only [hw, hpending, Option.some.injEq] at ht
      subst ht
      right
      rw [hw]
      exact Nat.le_refl 2
    · simp only [hw, hdetach, Option.some.injEq] at ht
      subst ht
      right
      rw [hw]
      exact Nat.le_refl 4

theorem Worker.turns_bounds (w : Worker) : 0 < w.turns ∧ w.turns ≤ 4 := by
  cases w <;> simp [Worker.turns]

theorem Due.executedSoon {c : Nat} (h : Due calls c s) {as : List (Action ω)}
    (hC : Along (step calls) (Orderly calls) s as) (ht : run (step calls) s as = some t)
    (hturns : 4 ≤ as.countP Action.isWorker) : c ∈ t.executed.map Execution.caller := by
  have hbound : s.worker.turns ≤ as.countP Action.isWorker :=
    Nat.le_trans (Worker.turns_bounds s.worker).2 hturns
  exact run_reaches (m := fun s => s.worker.turns) (fun _ _ _ => due_step)
    (fun _ _ _ => executed_step) (fun s _ _ => (Worker.turns_bounds s.worker).1)
    (fun _ _ _ hdue hnot _ => hdue.nearer hnot) h hC ht hbound

theorem Inv.oneOwner {owner : Option Nat} (h : Inv calls s owner) (hrequested : Requested s) :
    OneOwner calls s where
  oneHolder c d hc hd := by
    have hc := (h.history.holding c).mp hc
    have hd := (h.history.holding d).mp hd
    rw [hc] at hd
    exact Option.some.inj hd
  releasedOnce := h.history.releasedOnce
  releasedWhenOver c ret hdone hpending hcaller := by
    by_contra hmem
    have howner := (h.history.holding c).mp ⟨by simp [hdone], by simp [hdone], hmem⟩
    subst howner
    cases h.stage with
    | preparing _ _ _ _ hholds =>
      rw [hdone] at hholds
      cases hholds
    | queued _ _ hpend => exact hpending hpend
    | working _ _ _ hworker =>
      obtain ⟨hworker, -⟩ | hworker | ⟨hworker, -⟩ := hworker
      all_goals exact hcaller (by rw [hworker]; rfl)
    | giving _ _ _ hworker => exact hcaller (by rw [hworker]; rfl)
    | detached _ _ _ hworker =>
      obtain hworker | hworker | hworker := hworker
      all_goals exact hcaller (by rw [hworker]; rfl)
    | returning _ _ _ _ hpc => simp [hdone] at hpc
  executed := h.history.accepted
  workerGoesOn c hassigned :=
    Due.workerGoesOn ⟨⟨owner, h⟩, hrequested, hassigned⟩
  executedSoon c hassigned _ _ hC ht hturns :=
    Due.executedSoon ⟨⟨owner, h⟩, hrequested, hassigned⟩ hC ht hturns
  executedOnce := h.history.executedOnce
  executedOwn := h.history.executedOwn
  runReturns c ret id hkind hdone hassigned := by
    have hret := h.history.ret c ret (.inr (.inr hdone))
    unfold RetOk at hret
    rw [hkind] at hret
    exact hret id hassigned
  startReturns c ret hkind hdone hok := by
    have hret := h.history.ret c ret (.inr (.inr hdone))
    unfold RetOk at hret
    rw [hkind] at hret
    exact hret hok

/-- **One owner.** In every orderly run the run context belongs to one caller at a time, is
released once for each, every accepted run is executed once with what its caller passed, and
every caller returns what became of its own run. -/
theorem one_owner (calls : Callers) (as : List (Action ω))
    (hC : Along (step calls) (Orderly calls) initial as) {t : State ω}
    (ht : run (step calls) initial as = some t) : OneOwner calls t := by
  obtain ⟨owner, h⟩ := run_invariant inv_step ⟨none, inv_initial⟩ hC ht
  have hrequested : Requested t :=
    run_invariant (fun _ _ _ h _ => requested_step h) (fun h => absurd rfl h) (along_true as) ht
  exact h.oneOwner hrequested

/-! ## Two callers -/

/-- The first caller runs a script and waits, every other one starts one. -/
def twoKinds : Callers where
  kind c := if c = 0 then .run else .start
  request c := ⟨[97, UInt8.ofNat c], [], [0, 97, 115, 109]⟩

/-- A caller acquires the context, fills it in and queues it. -/
def queues (c : Nat) : List (Action Nat) := List.replicate 7 (.caller c .ok)

/-- The worker runs what is queued, gives the completion and is about to read
`detach_on_finish`. -/
def runs (outcome : Nat) : List (Action Nat) := List.replicate 6 (.worker outcome .ok)

/-- The caller of `script_service_run` takes the completion and releases the context. -/
def takesOver (c : Nat) : List (Action Nat) := List.replicate 4 (.caller c .ok)

/-- One run that is waited for, and after it one that is not. -/
def oneAfterTheOther : List (Action Nat) :=
  queues 0 ++ runs 5 ++ takesOver 0 ++ [.worker 0 .ok] ++
    queues 1 ++ [.caller 1 .ok] ++ runs 6 ++ List.replicate 3 (.worker 0 .ok)

theorem Worker.mem_caller_of_eq {w : Worker} {d : Nat} (h : w = .checking d ∨ w = .resetting d) :
    d ∈ w.caller := by
  obtain rfl | rfl := h <;> rfl

/-- Only the run that the worker is with has to be looked at. -/
instance [DecidableEq ω] (s : State ω) : ∀ a, Decidable (Orderly calls s a)
  | .caller c _ =>
    decidable_of_iff (s.pcs c = .loaded → calls.kind c = .start →
        ∀ d ∈ s.worker.caller, s.worker = .checking d → calls.kind d ≠ .run) <|
      forall_congr' fun _ => forall_congr' fun _ => forall_congr' fun _ =>
        ⟨fun h hd => h (Worker.mem_caller_of_eq (.inl hd)) hd, fun h _ => h⟩
  | .worker .. =>
    decidable_of_iff (∀ c ∈ s.worker.caller, s.worker = .resetting c → s.pcs c ≠ .queued) <|
      forall_congr' fun _ => ⟨fun h hc => h (Worker.mem_caller_of_eq (.inr hc)) hc, fun h _ => h⟩

theorem one_owner_oneAfterTheOther : ∃ t, run (step twoKinds) initial oneAfterTheOther = some t ∧
    t.released = [0, 1] ∧ t.executed.map Execution.caller = [0, 1] ∧ OneOwner twoKinds t := by
  refine ⟨_, rfl, rfl, rfl, one_owner twoKinds oneAfterTheOther ?_ rfl⟩
  decide

/-- Another caller acquires the context and asks for its release before the worker reads
`detach_on_finish` for the run that was waited for. -/
def releasedUnderItsOwner : List (Action Nat) :=
  queues 0 ++ runs 5 ++ takesOver 0 ++ List.replicate 6 (.caller 1 .ok) ++
    List.replicate 3 (.worker 0 .ok)

/-- The run of a caller of `script_service_start` is over and its context released before the
caller copies the result. -/
def startedAndGone : List (Action Nat) :=
  queues 1 ++ runs 5 ++ List.replicate 3 (.worker 0 .ok) ++ [.caller 1 .ok]

/-- In the first run the context is released twice for one caller and a context is released
that another is filling in; in the second a successful start returns no run identifier. -/
theorem one_owner_fails :
    (∃ t, run (step twoKinds) initial releasedUnderItsOwner = some t ∧ t.released = [0, 0] ∧
      t.pcs 1 = .ready ∧ t.context = .zero ∧ ¬ OneOwner twoKinds t) ∧
    ∃ t, run (step twoKinds) initial startedAndGone = some t ∧ t.assigned 1 = some 1 ∧
      t.pcs 1 = .done ⟨.ok, 0, none⟩ ∧ ¬ OneOwner twoKinds t := by
  refine ⟨⟨_, rfl, rfl, rfl, rfl, fun h => ?_⟩, _, rfl, rfl, rfl, fun h => ?_⟩
  · exact absurd h.releasedOnce (by decide)
  · exact absurd (h.startReturns 1 ⟨.ok, 0, none⟩ rfl rfl rfl) (by decide)

end Jukeboy.Services.ScriptRuns
