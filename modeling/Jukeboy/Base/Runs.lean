import Mathlib.Data.List.Basic
import Mathlib.Data.List.Forall2
import Mathlib.Tactic.Common

/-! # Runs of a labelled transition system

A system is a partial function from a state and an action to the next state;
an action that is not enabled has no next state. A run is a list of actions.
The rules below turn a fact about one step into a fact about every state and
every step of a run, when the steps of the run meet a side condition. -/
namespace Jukeboy.Base.Runs

variable {σ τ α β : Type}

/-- The state a list of actions leads to; `none` when an action of it is not enabled. -/
def run (step : σ → α → Option σ) : σ → List α → Option σ
  | s, [] => some s
  | s, a :: as => (step s a).bind fun t => run step t as

/-- Every step the actions take from `s` meets `C`, a condition on the state
before the step and the action. -/
def Along (step : σ → α → Option σ) (C : σ → α → Prop) : σ → List α → Prop
  | _, [] => True
  | s, a :: as => C s a ∧ ∀ t, step s a = some t → Along step C t as

@[simp] theorem run_nil (step : σ → α → Option σ) (s : σ) : run step s [] = some s := rfl

theorem run_cons (step : σ → α → Option σ) (s : σ) (a : α) (as : List α) :
    run step s (a :: as) = (step s a).bind fun t => run step t as := rfl

theorem run_cons_some {step : σ → α → Option σ} {s t : σ} {a : α} (as : List α)
    (h : step s a = some t) : run step s (a :: as) = run step t as := by
  rw [run_cons, h]; rfl

theorem run_append (step : σ → α → Option σ) (s : σ) (as bs : List α) :
    run step s (as ++ bs) = (run step s as).bind fun t => run step t bs := by
  induction as generalizing s with
  | nil => rfl
  | cons a as ih =>
    rw [List.cons_append, run_cons, run_cons]
    cases step s a with
    | none => rfl
    | some t => exact ih t

@[simp] theorem along_nil (step : σ → α → Option σ) (C : σ → α → Prop) (s : σ) :
    Along step C s [] := trivial

/-- Whether a given run meets a decidable condition can be computed. -/
instance decidableAlong (step : σ → α → Option σ) (C : σ → α → Prop)
    [∀ s a, Decidable (C s a)] : ∀ s as, Decidable (Along step C s as)
  | _, [] => isTrue trivial
  | s, a :: as =>
    match h : step s a with
    | none =>
      decidable_of_iff (C s a)
        ⟨fun hC => ⟨hC, fun t ht => by rw [h] at ht; cases ht⟩, And.left⟩
    | some t =>
      have := decidableAlong step C t as
      decidable_of_iff (C s a ∧ Along step C t as)
        ⟨fun hC => ⟨hC.1, fun u hu => by rw [h] at hu; cases hu; exact hC.2⟩,
          fun hC => ⟨hC.1, hC.2 t h⟩⟩

/-- `Along` read position by position: the prefix of the run before a step
leads to a state from which the step meets the condition. -/
theorem along_iff {step : σ → α → Option σ} {C : σ → α → Prop} {s : σ} {as : List α} :
    Along step C s as ↔
      ∀ pre a post t, as = pre ++ a :: post → run step s pre = some t → C t a := by
  induction as generalizing s with
  | nil => simp [Along]
  | cons b as ih =>
    constructor
    · rintro ⟨hC, hrest⟩ pre a post t heq hrun
      cases pre with
      | nil =>
        obtain ⟨rfl, rfl⟩ := List.cons.inj heq
        rw [run_nil, Option.some.injEq] at hrun
        exact hrun ▸ hC
      | cons c pre =>
        obtain ⟨rfl, rfl⟩ := List.cons.inj heq
        rw [run_cons] at hrun
        obtain ⟨u, hu, hrun⟩ := Option.bind_eq_some_iff.mp hrun
        exact ih.mp (hrest u hu) pre a post t rfl hrun
    · intro h
      refine ⟨h [] b as s rfl rfl, fun t ht => ih.mpr ?_⟩
      intro pre a post u heq hrun
      refine h (b :: pre) a post u (by rw [heq]; rfl) ?_
      rw [run_cons_some pre ht, hrun]

/-- The side condition that asks for nothing. -/
theorem along_true {step : σ → α → Option σ} {s : σ} (as : List α) :
    Along step (fun _ _ => True) s as :=
  along_iff.mpr fun _ _ _ _ _ _ => trivial

/-- A condition on the actions alone. -/
theorem along_of_forall {step : σ → α → Option σ} {P : α → Prop} {s : σ} {as : List α}
    (h : ∀ a ∈ as, P a) : Along step (fun _ a => P a) s as :=
  along_iff.mpr fun pre a post _ heq _ => h a (by rw [heq]; simp)

theorem along_append {step : σ → α → Option σ} {C : σ → α → Prop} {s : σ} {as bs : List α} :
    Along step C s (as ++ bs) ↔
      Along step C s as ∧ ∀ t, run step s as = some t → Along step C t bs := by
  induction as generalizing s with
  | nil => simp
  | cons a as ih =>
    simp only [List.cons_append, Along, ih, run_cons]
    constructor
    · rintro ⟨hC, hrest⟩
      refine ⟨⟨hC, fun u hu => (hrest u hu).1⟩, fun t ht => ?_⟩
      obtain ⟨u, hu, ht⟩ := Option.bind_eq_some_iff.mp ht
      exact (hrest u hu).2 t ht
    · rintro ⟨⟨hC, hrest⟩, hbs⟩
      refine ⟨hC, fun u hu => ⟨hrest u hu, fun t ht => hbs t ?_⟩⟩
      rw [hu]
      exact ht

/-- **The invariant rule.** What the first state has and every step that meets
the condition keeps, every state of a run of such steps has. -/
theorem run_invariant {step : σ → α → Option σ} {C : σ → α → Prop} {I : σ → Prop}
    (hstep : ∀ s a t, I s → C s a → step s a = some t → I t) {s t : σ} {as : List α}
    (h0 : I s) (hC : Along step C s as) (hrun : run step s as = some t) : I t := by
  induction as generalizing s with
  | nil => rw [run_nil, Option.some.injEq] at hrun; exact hrun ▸ h0
  | cons a as ih =>
    rw [run_cons] at hrun
    obtain ⟨u, hu, hrun⟩ := Option.bind_eq_some_iff.mp hrun
    exact ih (hstep s a u h0 hC.1 hu) (hC.2 u hu) hrun

/-- **The turns rule.** Where every turn brings a measure down and no other step brings it
up until `P` holds, `P` holds after as many turns as the measure says. -/
theorem run_reaches {step : σ → α → Option σ} {C : σ → α → Prop} {I P : σ → Prop}
    {turn : α → Bool} {m : σ → Nat}
    (hstep : ∀ s a t, I s → C s a → step s a = some t → I t)
    (hkeep : ∀ s a t, P s → step s a = some t → P t)
    (hpos : ∀ s, I s → ¬ P s → 0 < m s)
    (hturn : ∀ s a t, I s → ¬ P s → C s a → step s a = some t →
      P t ∨ m t + [a].countP turn ≤ m s) {s t : σ} {as : List α} (h0 : I s)
    (hC : Along step C s as) (hrun : run step s as = some t) (hm : m s ≤ as.countP turn) : P t := by
  induction as generalizing s with
  | nil =>
    rw [run_nil, Option.some.injEq] at hrun
    subst hrun
    by_contra hP
    exact absurd (hpos s h0 hP) (Nat.not_lt.mpr hm)
  | cons a as ih =>
    rw [run_cons] at hrun
    obtain ⟨u, hu, hrun⟩ := Option.bind_eq_some_iff.mp hrun
    have hfrom : P u → P t := fun hP =>
      run_invariant (fun s a t h _ => hkeep s a t h) hP (along_true as) hrun
    by_cases hP : P s
    · exact hfrom (hkeep s a u hP hu)
    · obtain hu' | hless := hturn s a u h0 hP hC.1 hu
      · exact hfrom hu'
      · refine ih (hstep s a u h0 hC.1 hu) (hC.2 u hu) hrun ?_
        rw [← List.singleton_append, List.countP_append] at hm
        omega

/-! ## Records of what has happened -/

/-- A system beside a record of what has happened in it, which `note` brings up to date
from the state before each step and its action. -/
def recorded (step : σ → α → Option σ) (note : σ → α → τ → τ) (s : σ × τ) (a : α) :
    Option (σ × τ) :=
  (step s.1 a).map fun t => (t, note s.1 a s.2)

theorem recorded_some {step : σ → α → Option σ} {note : σ → α → τ → τ} {s t : σ × τ} {a : α}
    (h : recorded step note s a = some t) : step s.1 a = some t.1 ∧ t.2 = note s.1 a s.2 := by
  obtain ⟨u, hu, rfl⟩ := Option.map_eq_some_iff.mp h
  exact ⟨hu, rfl⟩

/-- The record holds no run back. -/
theorem run_recorded {step : σ → α → Option σ} (note : σ → α → τ → τ) {s t : σ} {as : List α}
    (h : run step s as = some t) (r : τ) : ∃ r', run (recorded step note) (s, r) as = some (t, r') := by
  induction as generalizing s r with
  | nil =>
    rw [run_nil, Option.some.injEq] at h
    exact ⟨r, by rw [run_nil, h]⟩
  | cons a as ih =>
    rw [run_cons] at h
    obtain ⟨u, hu, h⟩ := Option.bind_eq_some_iff.mp h
    obtain ⟨r', hr⟩ := ih h (note s a r)
    refine ⟨r', ?_⟩
    rw [run_cons_some as (t := (u, note s a r)) (by rw [recorded, hu]; rfl), hr]

/-- A run never gets stuck where every action is enabled and keeps an invariant. -/
theorem run_total {step : σ → α → Option σ} {I : σ → Prop}
    (hstep : ∀ s a, I s → ∃ t, step s a = some t ∧ I t) {s : σ} (h0 : I s) (as : List α) :
    ∃ t, run step s as = some t ∧ I t := by
  induction as generalizing s with
  | nil => exact ⟨s, rfl, h0⟩
  | cons a as ih =>
    obtain ⟨u, hu, hI⟩ := hstep s a h0
    rw [run_cons_some as hu]
    exact ih hI

/-- What an invariant and the side condition give of one step holds of every step. -/
theorem along_of_invariant {step : σ → α → Option σ} {C P : σ → α → Prop} {I : σ → Prop}
    (hstep : ∀ s a t, I s → C s a → step s a = some t → I t)
    (hP : ∀ s a, I s → C s a → P s a) {s : σ} {as : List α}
    (h0 : I s) (hC : Along step C s as) : Along step P s as := by
  rw [along_iff]
  intro pre a post t heq hrun
  subst heq
  obtain ⟨hpre, hpost⟩ := along_append.mp hC
  exact hP t a (run_invariant hstep h0 hpre hrun) (hpost t hrun).1

theorem Along.imp {step : σ → α → Option σ} {C P : σ → α → Prop} {s : σ} {as : List α}
    (hCP : ∀ s a, C s a → P s a) (hC : Along step C s as) : Along step P s as :=
  along_iff.mpr fun pre a post t heq hrun => hCP t a (along_iff.mp hC pre a post t heq hrun)

/-- **The exact rule.** When a step that meets the condition, and no other, keeps
`P`, then `P` holds throughout a run exactly when it holds at first and every step
meets the condition. -/
theorem always_iff {step : σ → α → Option σ} {C : σ → α → Prop} {P : σ → Prop}
    (hstep : ∀ s a t, P s → step s a = some t → (P t ↔ C s a))
    (hnone : ∀ s a, step s a = none → C s a) {s : σ} {as : List α} :
    (∀ pre t, pre <+: as → run step s pre = some t → P t) ↔ P s ∧ Along step C s as := by
  induction as generalizing s with
  | nil =>
    constructor
    · exact fun h => ⟨h [] s List.prefix_rfl rfl, trivial⟩
    · rintro ⟨h, -⟩ pre t hpre hrun
      rw [List.prefix_nil.mp hpre, run_nil, Option.some.injEq] at hrun
      exact hrun ▸ h
  | cons a as ih =>
    constructor
    · intro h
      have hs := h [] s List.nil_prefix rfl
      have hrest : ∀ t, step s a = some t → P t ∧ Along step C t as := fun t ht =>
        ih.mp fun pre u hpre hrun =>
          h (a :: pre) u ((List.prefix_cons_inj a).mpr hpre) (by rw [run_cons_some pre ht, hrun])
      refine ⟨hs, ?_, fun t ht => (hrest t ht).2⟩
      cases ha : step s a with
      | none => exact hnone s a ha
      | some t => exact (hstep s a t hs ha).mp (hrest t ha).1
    · rintro ⟨hs, ha, hrest⟩ pre u hpre hrun
      cases pre with
      | nil =>
        rw [run_nil, Option.some.injEq] at hrun
        exact hrun ▸ hs
      | cons b pre =>
        obtain ⟨rfl, htail⟩ := List.cons_prefix_cons.mp hpre
        rw [run_cons] at hrun
        obtain ⟨t, ht, hrun⟩ := Option.bind_eq_some_iff.mp hrun
        exact ih.mpr ⟨(hstep s b t hs ht).mpr ha, hrest t ht⟩ pre u htail hrun

/-- **The exact rule for steps.** Where an invariant makes a property of a step the
same as a condition on it, and the property keeps the invariant, every step of a run
has the property exactly when every step meets the condition. -/
theorem along_congr {step : σ → α → Option σ} {C P : σ → α → Prop} {I : σ → Prop}
    (hkeep : ∀ s a t, I s → P s a → step s a = some t → I t)
    (hiff : ∀ s a, I s → (P s a ↔ C s a)) {s : σ} {as : List α} (h0 : I s) :
    Along step P s as ↔ Along step C s as := by
  induction as generalizing s with
  | nil => exact Iff.rfl
  | cons a as ih =>
    constructor
    · rintro ⟨hP, hrest⟩
      exact ⟨(hiff s a h0).mp hP, fun t ht => (ih (hkeep s a t h0 hP ht)).mp (hrest t ht)⟩
    · rintro ⟨hC, hrest⟩
      have hP := (hiff s a h0).mpr hC
      exact ⟨hP, fun t ht => (ih (hkeep s a t h0 hP ht)).mpr (hrest t ht)⟩

/-- **The two-run rule.** Runs of two systems over related actions lead from
related states to related states, when single steps do. -/
theorem run_related {step : σ → α → Option σ} {step' : τ → β → Option τ} {R : σ → τ → Prop}
    {S : α → β → Prop}
    (hstep : ∀ s t a b s' t', R s t → S a b → step s a = some s' → step' t b = some t' → R s' t')
    {s s' : σ} {t t' : τ} {as : List α} {bs : List β} (hR : R s t) (hS : List.Forall₂ S as bs)
    (hs : run step s as = some s') (ht : run step' t bs = some t') : R s' t' := by
  induction hS generalizing s t with
  | nil =>
    rw [run_nil, Option.some.injEq] at hs ht
    exact hs ▸ ht ▸ hR
  | cons hab _ ih =>
    rw [run_cons] at hs ht
    obtain ⟨u, hu, hs⟩ := Option.bind_eq_some_iff.mp hs
    obtain ⟨v, hv, ht⟩ := Option.bind_eq_some_iff.mp ht
    exact ih (hstep s t _ _ u v hR hab hu hv) hs ht

/-- **Weak simulation.** Where every step that meets the condition is matched by some
actions of another system, a run of such steps is matched by a run of it. -/
theorem run_simulated {step : σ → α → Option σ} {step' : τ → β → Option τ} {C : σ → α → Prop}
    {D : τ → β → Prop} {R : σ → τ → Prop} {M : α → List β → Prop}
    (hstep : ∀ s t a s', R s t → C s a → step s a = some s' →
      ∃ bs t', M a bs ∧ Along step' D t bs ∧ run step' t bs = some t' ∧ R s' t')
    {s s' : σ} {t : τ} {as : List α} (hR : R s t) (hC : Along step C s as)
    (hrun : run step s as = some s') :
    ∃ bss t', List.Forall₂ M as bss ∧ Along step' D t bss.flatten ∧
      run step' t bss.flatten = some t' ∧ R s' t' := by
  induction as generalizing s t with
  | nil =>
    rw [run_nil, Option.some.injEq] at hrun
    exact ⟨[], t, .nil, trivial, rfl, hrun ▸ hR⟩
  | cons a as ih =>
    rw [run_cons] at hrun
    obtain ⟨u, hu, hrun⟩ := Option.bind_eq_some_iff.mp hrun
    obtain ⟨bs, v, hmatch, hD, hv, hR⟩ := hstep s t a u hR hC.1 hu
    obtain ⟨bss, t', hmatches, hDs, ht, hR⟩ := ih hR (hC.2 u hu) hrun
    refine ⟨bs :: bss, t', .cons hmatch hmatches, ?_, ?_, hR⟩
    · rw [List.flatten_cons, along_append]
      refine ⟨hD, fun v' hv' => ?_⟩
      rw [hv, Option.some.injEq] at hv'
      exact hv' ▸ hDs
    · rw [List.flatten_cons, run_append, hv]
      exact ht

end Jukeboy.Base.Runs
