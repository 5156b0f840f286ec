import Jukeboy.Services.RunOwnership
import Jukeboy.Services.ScriptArgv

/-! # Arguments over the limits

A caller whose arguments are not copied returns an error and releases the run context; its
run is never queued. -/
namespace Jukeboy.Services.ScriptRuns

open Jukeboy.Base Jukeboy.Base.Runs Jukeboy.Services.ScriptArgv

variable {ω : Type} {calls : Callers} {s t : State ω} {c : Nat}

/-- What the caller sees of the copy of its arguments. -/
def copyErr : Except ArgvError ArgvCopy → EspErr
  | .ok _ => .ok
  | .error _ => .noMem

/-- The copy of the caller's arguments has this result. -/
def Copies (result : EspErr) (c : Nat) (s : State ω) (a : Action ω) : Prop :=
  ∀ err, a = .caller c err → s.pcs c = .resolved → err = result

/-- The caller has not come past the copy of its arguments. -/
def Pc.uncopied : Pc ω → Bool
  | .argued | .loaded | .ready | .queued | .completed => false
  | _ => true

/-- What the caller is going to return. -/
def Pc.ret : Pc ω → Option (Ret ω)
  | .releasing ret | .resetting ret | .done ret => some ret
  | _ => none

/-- The caller's run is not queued, and it returns an error after it has released the
context. -/
structure TurnedAway (s : State ω) (c : Nat) : Prop where
  uncopied : (s.pcs c).uncopied = true
  pending : s.pending ≠ some c
  worker : s.worker.caller ≠ some c
  assigned : s.assigned c = none
  executed : ∀ e ∈ s.executed, e.caller ≠ c
  failed : ∀ ret, (s.pcs c).ret = some ret → ret.err ≠ .ok
  released : ∀ ret, s.pcs c = .done ret → c ∈ s.released

/-- The caller is not stuck, and leaves the context free when it returns. -/
structure LeavesFree (calls : Callers) (s : State ω) (c : Nat) : Prop where
  goesOn : s.pcs c ≠ .rejected → (∀ ret, s.pcs c ≠ .done ret) → ∀ err, ∃ t,
    callerStep calls c err s = some t
  free : ∀ ret err t, s.pcs c = .resetting ret → callerStep calls c err s = some t →
    t.pcs c = .done ret ∧ t.inUse = false ∧ t.context = .zero

theorem turnedAway_initial : TurnedAway (initial : State ω) c where
  uncopied := rfl
  pending := by
    intro h
    cases h
  worker := by
    intro h
    cases h
  assigned := rfl
  executed := by
    intro _ h
    cases h
  failed _ h := by cases h
  released _ h := by cases h

/-- What another caller's step leaves alone. -/
structure Apart (s t : State ω) (c d : Nat) : Prop where
  pc : t.pcs c = s.pcs c
  worker : t.worker = s.worker
  executed : t.executed = s.executed
  assigned : t.assigned c = s.assigned c
  pending : t.pending = s.pending ∨ t.pending = some d
  released : ∀ e ∈ s.released, e ∈ t.released

theorem apart_goto {d : Nat} (hcd : c ≠ d) (context : Context ω) (inUse : Bool) (pc : Pc ω) :
    Apart s ({ s with context := context, inUse := inUse }.goto d pc) c d :=
  ⟨goto_other _ hcd _, rfl, rfl, rfl, .inl rfl, fun _ he => he⟩

theorem callerStep_apart {d : Nat} {err : EspErr} (hcd : c ≠ d)
    (h : callerStep calls d err s = some t) : Apart s t c d := by
  unfold callerStep at h
  cases hd : s.pcs d with
  | idle =>
    simp only [hd, acquireContext, Option.some.injEq] at h
    split at h
    · exact h ▸ apart_goto hcd s.context s.inUse _
    · exact h ▸ apart_goto hcd .zero true _
  | ready =>
    simp only [hd, queueContext, Option.some.injEq] at h
    split at h
    · exact h ▸ apart_goto hcd _ s.inUse _
    · subst h
      exact ⟨goto_other _ hcd _, rfl, rfl, Function.update_of_ne hcd .., .inr rfl, fun _ he => he⟩
  | resetting ret =>
    simp only [hd, Option.some.injEq] at h
    subst h
    exact ⟨goto_other _ hcd _, rfl, rfl, rfl, .inl rfl, fun _ he => List.mem_append_left _ he⟩
  | queued =>
    simp only [hd] at h
    split at h
    · cases h
      exact apart_goto hcd s.context s.inUse _
    · split at h
      · cases h
        exact apart_goto hcd _ s.inUse _
      · cases h
  | named | resolved | argued =>
    simp only [hd] at h
    split at h
    · cases h
      exact apart_goto hcd s.context s.inUse _
    · cases h
      exact apart_goto hcd _ s.inUse _
  | acquired | loaded | completed | releasing ret =>
    simp only [hd, Option.some.injEq] at h
    exact h ▸ apart_goto hcd _ s.inUse _
  | rejected | done ret =>
    simp only [hd] at h
    cases h

/-- The caller goes on, and does not return yet. -/
theorem TurnedAway.goto (h : TurnedAway s c) {pc : Pc ω} (huncopied : pc.uncopied = true)
    (hfailed : ∀ ret ∈ pc.ret, ret.err ≠ .ok) (hback : ∀ ret, pc = .done ret → c ∈ s.released)
    (context : Context ω) (inUse : Bool) :
    TurnedAway ({ s with context := context, inUse := inUse }.goto c pc) c where
  uncopied := by rwa [goto_same]
  pending := h.pending
  worker := h.worker
  assigned := h.assigned
  executed := h.executed
  failed := by rwa [goto_same]
  released := by rwa [goto_same]

theorem TurnedAway.forth (h : TurnedAway s c) {pc : Pc ω} (huncopied : pc.uncopied = true)
    (hret : pc.ret = none) (context : Context ω) (inUse : Bool) :
    TurnedAway ({ s with context := context, inUse := inUse }.goto c pc) c := by
  refine h.goto huncopied ?_ ?_ context inUse
  · rw [hret]
    intro _ h
    cases h
  · rintro ret rfl
    cases hret

/-- The caller's own steps: it acquires the context, fails, and releases it. -/
theorem TurnedAway.own {err : EspErr} (h : TurnedAway s c)
    (hcopy : s.pcs c = .resolved → err ≠ .ok) (ht : callerStep calls c err s = some t) :
    TurnedAway t c := by
  have huncopied := h.uncopied
  unfold callerStep at ht
  cases hc : s.pcs c with
  | idle =>
    simp only [hc, acquireContext, Option.some.injEq] at ht
    split at ht
    · exact ht ▸ h.forth rfl rfl s.context s.inUse
    · exact ht ▸ h.forth rfl rfl .zero true
  | acquired =>
    simp only [hc, Option.some.injEq] at ht
    exact ht ▸ h.forth rfl rfl _ s.inUse
  | named =>
    simp only [hc] at ht
    split at ht
    · next herr =>
      cases ht
      refine h.goto rfl ?_ ?_ s.context s.inUse
      · rintro ret ⟨⟩
        exact herr
      · intro _ h
        cases h
    · cases ht
      exact h.forth rfl rfl s.context s.inUse
  | resolved =>
    simp only [hc] at ht
    rw [if_pos (hcopy hc), Option.some.injEq] at ht
    subst ht
    refine h.goto rfl ?_ ?_ s.context s.inUse
    · rintro ret ⟨⟩
      intro h
      cases h
    · intro _ h
      cases h
  | releasing ret =>
    simp only [hc, Option.some.injEq] at ht
    subst ht
    refine h.goto rfl ?_ ?_ _ s.inUse
    · rintro ret ⟨⟩
      exact h.failed ret (by rw [hc]; rfl)
    · intro _ h
      cases h
  | resetting ret =>
    simp only [hc, Option.some.injEq] at ht
    subst ht
    refine ⟨by rw [goto_same]; rfl, h.pending, h.worker, h.assigned, h.executed, ?_, ?_⟩
    · rw [goto_same]
      rintro ret ⟨⟩
      exact h.failed ret (by rw [hc]; rfl)
    · intro ret _
      exact List.mem_append_right _ List.mem_cons_self
  | rejected | done ret =>
    simp only [hc] at ht
    cases ht
  | argued | loaded | ready | queued | completed =>
    rw [hc] at huncopied
    cases huncopied

/-- The worker only turns to a run that is pending. -/
theorem TurnedAway.turn (h : TurnedAway s c) {u : State ω} (hpcs : u.pcs = s.pcs)
    (hpending : u.pending = s.pending ∨ u.pending = none)
    (hworker : u.worker.caller = s.worker.caller ∨ u.worker.caller = s.pending ∨
      u.worker.caller = none)
    (hassigned : u.assigned = s.assigned)
    (hexecuted : ∀ e ∈ u.executed, e ∈ s.executed ∨ s.worker.caller = some e.caller)
    (hreleased : ∀ e ∈ s.released, e ∈ u.released) : TurnedAway u c where
  uncopied := hpcs ▸ h.uncopied
  pending := by
    obtain hsame | hnone := hpending
    · exact hsame ▸ h.pending
    · exact hnone ▸ (fun h => by cases h)
  worker := by
    obtain hsame | htaken | hnone := hworker
    · exact hsame ▸ h.worker
    · exact htaken ▸ h.pending
    · exact hnone ▸ (fun h => by cases h)
  assigned := hassigned ▸ h.assigned
  executed e he := by
    obtain hold | hnow := hexecuted e he
    · exact h.executed e hold
    · rintro rfl
      exact h.worker hnow
  failed := hpcs ▸ h.failed
  released ret hret := by
    rw [hpcs] at hret
    exact hreleased c (h.released ret hret)

theorem TurnedAway.worker_step {outcome : ω} {err : EspErr} (h : TurnedAway s c)
    (ht : workerStep outcome err s = some t) : TurnedAway t c := by
  unfold workerStep at ht
  cases hw : s.worker with
  | waiting =>
    simp only [hw, Option.ite_none_right_eq_some, Option.some.injEq] at ht
    obtain ⟨-, rfl⟩ := ht
    exact h.turn rfl (.inl rfl) (.inr (.inr rfl)) rfl (fun _ he => .inl he) (fun _ he => he)
  | woken =>
    simp only [hw] at ht
    split at ht
    · cases ht
      exact h.turn rfl (.inl rfl) (.inr (.inr rfl)) rfl (fun _ he => .inl he) (fun _ he => he)
    · next hpending =>
      cases ht
      exact h.turn rfl (.inr rfl) (.inr (.inl hpending.symm)) rfl (fun _ he => .inl he)
        (fun _ he => he)
  | running d =>
    simp only [hw, Option.some.injEq] at ht
    subst ht
    refine h.turn rfl (.inl rfl) (.inl (by rw [hw]; rfl)) rfl (fun e he => ?_) (fun _ he => he)
    rw [List.mem_append, List.mem_singleton] at he
    refine he.imp_right fun heq => ?_
    rw [hw, heq]
    rfl
  | giving d =>
    simp only [hw] at ht
    split at ht
    · cases ht
    · cases ht
      exact h.turn rfl (.inl rfl) (.inl (by rw [hw]; rfl)) rfl (fun _ he => .inl he)
        (fun _ he => he)
  | checking d =>
    simp only [hw, Option.some.injEq] at ht
    subst ht
    refine h.turn rfl (.inl rfl) ?_ rfl (fun _ he => .inl he) (fun _ he => he)
    dsimp only
    split
    · exact .inl (by rw [hw]; rfl)
    · exact .inr (.inr rfl)
  | resetting d =>
    simp only [hw, Option.some.injEq] at ht
    subst ht
    exact h.turn rfl (.inl rfl) (.inr (.inr rfl)) rfl (fun _ he => .inl he)
      (fun _ he => List.mem_append_left _ he)
  | executing d | finishing d | releasing d =>
    simp only [hw, Option.some.injEq] at ht
    subst ht
    exact h.turn rfl (.inl rfl) (.inl (by rw [hw]; rfl)) rfl (fun _ he => .inl he)
      (fun _ he => he)

theorem turnedAway_step {result : EspErr} (hresult : result ≠ .ok) (s : State ω) (a : Action ω)
    (t : State ω) (h : TurnedAway s c) (hcopies : Copies result c s a)
    (ht : step calls s a = some t) : TurnedAway t c := by
  cases a with
  | worker outcome err => exact h.worker_step ht
  | caller d err =>
    by_cases hcd : c = d
    · subst hcd
      exact h.own (fun hc => hcopies err rfl hc ▸ hresult) ht
    · have hapart := callerStep_apart hcd ht
      refine ⟨hapart.pc ▸ h.uncopied, ?_, hapart.worker ▸ h.worker, hapart.assigned ▸ h.assigned,
        hapart.executed ▸ h.executed, hapart.pc ▸ h.failed, ?_⟩
      · obtain hsame | hqueued := hapart.pending
        · rw [hsame]
          exact h.pending
        · rw [hqueued]
          exact fun heq => hcd (Option.some.inj heq).symm
      · intro ret hret
        rw [hapart.pc] at hret
        exact hapart.released c (h.released ret hret)

theorem TurnedAway.leavesFree (h : TurnedAway s c) : LeavesFree calls s c where
  goesOn hrejected hdone err := by
    have huncopied := h.uncopied
    unfold callerStep
    cases hc : s.pcs c with
    | idle | acquired | releasing ret | resetting ret => exact ⟨_, rfl⟩
    | named | resolved =>
      dsimp only
      split
      · exact ⟨_, rfl⟩
      · exact ⟨_, rfl⟩
    | rejected => exact absurd hc hrejected
    | done ret => exact absurd hc (hdone ret)
    | argued | loaded | ready | queued | completed =>
      rw [hc] at huncopied
      cases huncopied
  free ret err t hc ht := by
    simp only [callerStep, hc, Option.some.injEq] at ht
    subst ht
    exact ⟨goto_same .., rfl, rfl⟩

/-- **Over the limits** nothing is copied, and the caller's run is not queued. -/
theorem overLimit_turnedAway {programPath : Option ScriptNames.Bytes} {argc : Int}
    {argv : Option (Nat → Option ScriptNames.Bytes)} (h : OverLimit programPath argc argv)
    (allocates : Nat → Bool) (calls : Callers) (c : Nat) {as : List (Action ω)}
    (hcopies : Along (step calls)
      (Copies (copyErr (duplicateArgv allocates programPath argc argv)) c) initial as)
    (hrun : run (step calls) initial as = some t) : TurnedAway t c ∧ LeavesFree calls t c := by
  obtain ⟨e, he, -⟩ := duplicateArgv_overLimit allocates h
  rw [he] at hcopies
  have hresult : copyErr (.error e) ≠ .ok := fun h => by cases h
  have haway := run_invariant (turnedAway_step hresult) turnedAway_initial hcopies hrun
  exact ⟨haway, haway.leavesFree⟩

end Jukeboy.Services.ScriptRuns
