import Mathlib.Data.List.Chain
import Jukeboy.Power.Rails

/-! # Rail events

A call publishes the new state of its rail, lets go of the lock and posts the event. Two
calls that have switched one rail can post in either order. Where every call posts before
the calls that switched its rail after it, the events of a rail go with its state. -/
namespace Jukeboy.Power.RailEvents

open Jukeboy.Base Jukeboy.Base.Runs Jukeboy.Power.Rails

/-- All calls out of the service succeed. -/
def Succeeds : Action → Prop
  | .call _ _ answers => ∀ c, answers c = .ok
  | .post _ err => err = .ok
  | .bind .. => True

/-- A call posts its event while no call stands before it that has switched the same rail. -/
def InOrder (s : State) : Action → Prop
  | .post index _ => ∀ c, s.calls[index]? = some c →
      ∀ d ∈ s.calls.take index, d.op.rail ≠ c.op.rail
  | _ => True

instance decidableInOrder (s : State) : ∀ a, Decidable (InOrder s a)
  | .post index _ =>
    match h : s.calls[index]? with
    | none => isTrue fun c hc => by rw [h] at hc; cases hc
    | some c =>
      decidable_of_iff (∀ d ∈ s.calls.take index, d.op.rail ≠ c.op.rail)
        ⟨fun hc c' hc' => by rw [h] at hc'; cases hc'; exact hc, fun hc => hc c h⟩
  | .call .. | .bind .. => isTrue trivial

/-- A rail is as its override and its count say. -/
def Settled (r : RailState) : Prop := r.enabled = effectiveEnabled r

/-- The events posted for a rail, true for `RAIL_ON`. -/
def postedOf (rail : Rail) (posted : List (Rail × Bool)) : List Bool :=
  (posted.filter fun e => e.1 = rail).map Prod.snd

/-- The events of a rail that its calls have still to post. -/
def flightOf (rail : Rail) (calls : List Call) : List Bool :=
  (calls.filter fun c => c.op.rail = rail).map Call.enabled

/-- The events alternate, and the first is `RAIL_ON`. -/
def Alternates (events : List Bool) : Prop := List.IsChain (· ≠ ·) (false :: events)

/-- The last event matches the state of the rail; before the first the rail is off. -/
def LastMatches (events : List Bool) (enabled : Bool) : Prop :=
  (false :: events).getLast? = some enabled

/-- While no call on a rail is in progress, the events posted for it agree with its state. -/
def Agrees (s : State) : Prop :=
  ∀ rail, (∀ c ∈ s.calls, c.op.rail ≠ rail) →
    Settled (s.service.rails rail) ∧ Alternates (postedOf rail s.posted) ∧
      LastMatches (postedOf rail s.posted) (s.service.rails rail).enabled

/-! ## One call -/

theorem applyLocked_of_succeeds {answers : Answers} (hok : ∀ c, answers c = .ok) (s : Service)
    (rail : Rail) :
    applyLocked s rail answers =
      if effectiveEnabled (s.rails rail) = (s.rails rail).enabled then (s, .returned .ok)
      else (s.setEnabled rail (effectiveEnabled (s.rails rail)),
        .posting (effectiveEnabled (s.rails rail))) := by
  unfold applyLocked
  dsimp only
  split
  · rfl
  · rw [firstError_eq_ok.mpr fun c _ => hok c, if_neg (by simp)]

/-- What a call does to the rails: it leaves its rail settled, and posts an event exactly
when it has switched it. -/
structure Called (s : Service) (op : Op) (result : Service × Applied) : Prop where
  others : ∀ rail, rail ≠ op.rail → result.1.rails rail = s.rails rail
  settled : Settled (result.1.rails op.rail)
  returned : ∀ err, result.2 = .returned err →
    (result.1.rails op.rail).enabled = (s.rails op.rail).enabled
  posting : ∀ enabled, result.2 = .posting enabled →
    (result.1.rails op.rail).enabled = enabled ∧ (s.rails op.rail).enabled ≠ enabled

theorem callLocked_called {answers : Answers} (hok : ∀ c, answers c = .ok) {s : Service} {op : Op}
    (hs : Settled (s.rails op.rail)) : Called s op (callLocked s answers op) := by
  rw [callLocked_eq]
  split
  · exact ⟨fun _ _ => rfl, hs, fun _ _ => rfl, fun _ h => by cases h⟩
  have henabled : (op.change (s.rails op.rail)).enabled = (s.rails op.rail).enabled := by
    cases op <;> rfl
  rw [applyLocked_of_succeeds hok, Service.set_same]
  split
  · next hsame =>
    refine ⟨fun rail hne => Service.set_other s hne _, ?_, fun _ _ => ?_, fun _ h => by cases h⟩
    · rw [Settled, Service.set_same, hsame]
    · rw [Service.set_same, henabled]
  · next hswitch =>
    refine ⟨fun rail hne => ?_, ?_, fun _ h => (by cases h), ?_⟩
    · rw [Service.setEnabled, Service.set_other _ hne, Service.set_other s hne]
    · rw [Settled, Service.setEnabled, Service.set_same, Service.set_same]
      rfl
    · intro enabled henabled'
      cases henabled'
      rw [Service.setEnabled, Service.set_same]
      exact ⟨rfl, fun heq => hswitch (by rw [henabled, heq])⟩

/-! ## The invariant -/

/-- The rail is settled, and the events posted for it and those still to come alternate up
to its state. -/
structure Ordered (s : State) (rail : Rail) : Prop where
  settled : Settled (s.service.rails rail)
  alternates : Alternates (postedOf rail s.posted ++ flightOf rail s.calls)
  last : LastMatches (postedOf rail s.posted ++ flightOf rail s.calls)
    (s.service.rails rail).enabled

theorem alternates_append {events : List Bool} {enabled next : Bool} (h : Alternates events)
    (hlast : LastMatches events enabled) (hne : enabled ≠ next) :
    Alternates (events ++ [next]) := by
  unfold Alternates at h ⊢
  rw [← List.cons_append, List.isChain_append]
  refine ⟨h, List.isChain_singleton next, ?_⟩
  intro x hx y hy
  rw [hlast, Option.mem_some_iff] at hx
  rw [List.head?_cons, Option.mem_some_iff] at hy
  rwa [← hx, ← hy]

theorem lastMatches_append (events : List Bool) (next : Bool) :
    LastMatches (events ++ [next]) next := by
  rw [LastMatches, ← List.cons_append, List.getLast?_append]
  rfl

theorem ordered_call {s : State} (h : ∀ rail, Ordered s rail) (client : Client) (op : Op)
    {answers : Answers} (hok : ∀ c, answers c = .ok) (rail : Rail) :
    Ordered (call s client op answers).1 rail := by
  have hcalled := callLocked_called hok (h op.rail).settled
  have hrail := h rail
  rcases hcall : callLocked s.service answers op with ⟨service, err | enabled⟩
  · rw [hcall] at hcalled
    rw [call_of_returned hcall]
    by_cases hop : rail = op.rail
    · subst hop
      refine ⟨hcalled.settled, hrail.alternates, ?_⟩
      rw [hcalled.returned err rfl]
      exact hrail.last
    · have hsame := hcalled.others rail hop
      exact ⟨by rw [hsame]; exact hrail.settled, hrail.alternates,
        by rw [hsame]; exact hrail.last⟩
  · rw [hcall] at hcalled
    rw [call_of_posting hcall]
    by_cases hop : rail = op.rail
    · subst hop
      obtain ⟨hnew, hold⟩ := hcalled.posting enabled rfl
      have hflight : ∀ changed, flightOf op.rail (s.calls ++ [⟨client, op, enabled, changed⟩]) =
          flightOf op.rail s.calls ++ [enabled] := by
        intro changed
        simp [flightOf]
      refine ⟨hcalled.settled, ?_, ?_⟩
      · rw [hflight, ← List.append_assoc]
        exact alternates_append hrail.alternates hrail.last hold
      · rw [hflight, ← List.append_assoc, hnew]
        exact lastMatches_append _ enabled
    · have hsame := hcalled.others rail hop
      have hflight : ∀ changed, flightOf rail (s.calls ++ [⟨client, op, enabled, changed⟩]) =
          flightOf rail s.calls := by
        intro changed
        simp [flightOf, Ne.symm hop]
      refine ⟨by rw [hsame]; exact hrail.settled, ?_, ?_⟩
      · rw [hflight]
        exact hrail.alternates
      · rw [hflight, hsame]
        exact hrail.last

/-- A call that posts in order moves the next event of its rail to those posted. -/
theorem history_post {s : State} {index : Nat} {c : Call} (hc : s.calls[index]? = some c)
    (horder : ∀ d ∈ s.calls.take index, d.op.rail ≠ c.op.rail) (rail : Rail) :
    postedOf rail (post s index c .ok).posted ++ flightOf rail (post s index c .ok).calls =
      postedOf rail s.posted ++ flightOf rail s.calls := by
  have hsplit := calls_around hc
  simp only [post, if_true, List.eraseIdx_eq_take_drop_succ]
  conv_rhs => rw [hsplit]
  by_cases hrail : c.op.rail = rail
  · have hnone : (s.calls.take index).filter (fun d => d.op.rail = rail) = [] := by
      rw [List.filter_eq_nil_iff]
      intro d hd
      rw [← hrail]
      simpa using horder d hd
    simp [postedOf, flightOf, hrail, hnone]
  · simp [postedOf, flightOf, hrail]

theorem ordered_step (s : State) (a : Action) (t : State) (h : ∀ rail, Ordered s rail)
    (hC : Succeeds a ∧ InOrder s a) (ht : step s a = some t) : ∀ rail, Ordered t rail := by
  intro rail
  cases a with
  | call client op answers =>
    cases ht
    exact ordered_call h client op hC.1 rail
  | post index err =>
    obtain ⟨c, hc, rfl⟩ := Option.map_eq_some_iff.mp ht
    have herr : err = .ok := hC.1
    subst herr
    have hhistory := history_post hc (hC.2 c hc) rail
    refine ⟨(h rail).settled, ?_, ?_⟩
    · rw [hhistory]
      exact (h rail).alternates
    · rw [hhistory]
      exact (h rail).last
  | bind channel prepareOff =>
    cases ht
    have hrails : (bindDacI2sChannel s.service channel prepareOff).rails = s.service.rails := by
      unfold bindDacI2sChannel
      split
      · rfl
      · rfl
    refine ⟨?_, (h rail).alternates, ?_⟩
    · rw [hrails]
      exact (h rail).settled
    · rw [hrails]
      exact (h rail).last

theorem ordered_initial (rail : Rail) : Ordered initial rail :=
  ⟨rfl, List.isChain_singleton false, rfl⟩

theorem Ordered.agrees {s : State} (h : ∀ rail, Ordered s rail) : Agrees s := by
  intro rail hidle
  have hflight : flightOf rail s.calls = [] := by
    rw [flightOf, List.map_eq_nil_iff, List.filter_eq_nil_iff]
    intro c hc
    simpa using hidle c hc
  have hrail := h rail
  refine ⟨hrail.settled, ?_, ?_⟩
  · simpa [hflight] using hrail.alternates
  · simpa [hflight] using hrail.last

/-- **Rail events agree with rail states** in every run in which the calls on a rail post in
the order in which they switched it. -/
theorem events_agree (as : List Action) (hok : Along step (fun _ a => Succeeds a) initial as)
    (horder : Along step InOrder initial as) {t : State} (ht : run step initial as = some t) :
    Agrees t := by
  have hC : Along step (fun s a => Succeeds a ∧ InOrder s a) initial as := by
    rw [along_iff]
    intro pre a post u heq hrun
    exact ⟨along_iff.mp hok pre a post u heq hrun, along_iff.mp horder pre a post u heq hrun⟩
  exact Ordered.agrees (run_invariant ordered_step ordered_initial hC ht)

/-- Two tasks switch the LED rail on and off, a third sets an override. -/
def takingTurns : List Action :=
  [.call (.other 1) (.request .led) fun _ => .ok, .call (.other 2) (.release .led) fun _ => .ok,
    .post 0 .ok, .call (.other 3) (.setOverride .led .forceOn) fun _ => .ok, .post 0 .ok,
    .post 0 .ok]

theorem events_agree_turns :
    ∃ t, run step initial takingTurns = some t ∧ t.posted =
      [(.led, true), (.led, false), (.led, true)] ∧ Agrees t := by
  refine ⟨_, rfl, rfl, events_agree takingTurns ?_ ?_ rfl⟩
  · exact along_of_forall (by simp [takingTurns, Succeeds])
  · decide

/-- The task that has switched the rail off posts before the one that has switched it on. -/
def overtaken : List Action :=
  [.call (.other 1) (.request .led) fun _ => .ok, .call (.other 2) (.release .led) fun _ => .ok,
    .post 1 .ok, .post 0 .ok]

theorem overtaken_disagrees :
    Along step (fun _ a => Succeeds a) initial overtaken ∧
      ∃ t, run step initial overtaken = some t ∧ t.calls = [] ∧
        ¬ Alternates (postedOf .led t.posted) ∧
        ¬ LastMatches (postedOf .led t.posted) (t.service.rails .led).enabled := by
  refine ⟨along_of_forall (by simp [overtaken, Succeeds]), _, rfl, rfl, ?_, ?_⟩
  · unfold Alternates
    decide
  · unfold LastMatches
    decide

end Jukeboy.Power.RailEvents
