import Mathlib.Order.Basic

/-! # Programs with a state that may stop early

A program changes a state and returns a value or stops with an error; what it has done to
the state before it stopped stays done. `Keeps` is the specification of a program from a
state: an invariant holds at its end, the state has only grown, and what it returns meets a
postcondition. -/
namespace Jukeboy.Base

def Fallible (σ ε α : Type) := σ → Except ε α × σ

namespace Fallible

variable {σ ε α β : Type}

instance : Monad (Fallible σ ε) where
  pure a s := (.ok a, s)
  bind x f s :=
    match x s with
    | (.ok a, t) => f a t
    | (.error e, t) => (.error e, t)

/-- Stop with an error. -/
def fail (e : ε) : Fallible σ ε α := fun s => (.error e, s)

def get : Fallible σ ε σ := fun s => (.ok s, s)

def modify (f : σ → σ) : Fallible σ ε Unit := fun s => (.ok (), f s)

/-- Go on with the value, stop with the error. -/
def lift : Except ε α → Fallible σ ε α
  | .ok a => pure a
  | .error e => fail e

@[simp] theorem pure_apply (a : α) (s : σ) : (pure a : Fallible σ ε α) s = (.ok a, s) := rfl

@[simp] theorem fail_apply (e : ε) (s : σ) : (fail e : Fallible σ ε α) s = (.error e, s) := rfl

@[simp] theorem get_apply (s : σ) : (get : Fallible σ ε σ) s = (.ok s, s) := rfl

@[simp] theorem modify_apply (f : σ → σ) (s : σ) :
    (modify f : Fallible σ ε Unit) s = (.ok (), f s) := rfl

@[simp] theorem lift_ok (a : α) (s : σ) : (lift (.ok a) : Fallible σ ε α) s = (.ok a, s) := rfl

@[simp] theorem lift_error (e : ε) (s : σ) :
    (lift (.error e) : Fallible σ ε α) s = (.error e, s) := rfl

theorem bind_of_ok {x : Fallible σ ε α} {f : α → Fallible σ ε β} {s t : σ} {a : α}
    (h : x s = (.ok a, t)) : (x >>= f) s = f a t := by
  change (match x s with | (.ok a, t) => f a t | (.error e, t) => (.error e, t)) = _
  rw [h]

theorem bind_of_error {x : Fallible σ ε α} {f : α → Fallible σ ε β} {s t : σ} {e : ε}
    (h : x s = (.error e, t)) : (x >>= f) s = (.error e, t) := by
  change (match x s with | (.ok a, t) => f a t | (.error e, t) => (.error e, t)) = _
  rw [h]

/-! ## Invariants -/

section

variable {I : σ → Prop} {Q : α → Prop}

/-- From a state that meets the invariant the program ends in one, and what it returns
meets a condition. -/
def Maintains (I : σ → Prop) (x : Fallible σ ε α) (Q : α → Prop) : Prop :=
  ∀ s, I s → I (x s).2 ∧ ∀ a, (x s).1 = .ok a → Q a

theorem maintains_pure {a : α} (hQ : Q a) : Maintains I (pure a : Fallible σ ε α) Q := by
  intro s hI
  refine ⟨hI, fun b hb => ?_⟩
  cases hb
  exact hQ

theorem maintains_fail {e : ε} : Maintains I (fail e : Fallible σ ε α) Q := by
  intro s hI
  refine ⟨hI, fun b hb => ?_⟩
  cases hb

theorem maintains_get : Maintains I (get : Fallible σ ε σ) I := by
  intro s hI
  refine ⟨hI, fun b hb => ?_⟩
  cases hb
  exact hI

theorem maintains_modify {f : σ → σ} (hf : ∀ s, I s → I (f s)) :
    Maintains I (modify f : Fallible σ ε Unit) fun _ => True :=
  fun s hI => ⟨hf s hI, fun _ _ => trivial⟩

theorem Maintains.bind {x : Fallible σ ε α} {f : α → Fallible σ ε β} {Q' : β → Prop}
    (hx : Maintains I x Q) (hf : ∀ a, Q a → Maintains I (f a) Q') :
    Maintains I (x >>= f) Q' := by
  intro s hI
  rcases hr : x s with ⟨r, t⟩
  obtain ⟨hI', hQ⟩ := hx s hI
  simp only [hr] at hI' hQ
  cases r with
  | ok a =>
    rw [bind_of_ok hr]
    exact hf a (hQ a rfl) t hI'
  | error e =>
    rw [bind_of_error hr]
    refine ⟨hI', fun b hb => ?_⟩
    cases hb

end

/-! ## Specifications -/

section

variable [Preorder σ] {I : σ → Prop} {s : σ}

structure Keeps (I : σ → Prop) (s : σ) (x : Fallible σ ε α) (Q : α → σ → Prop) : Prop where
  invariant : I (x s).2
  grows : s ≤ (x s).2
  returns : ∀ a, (x s).1 = .ok a → Q a (x s).2

theorem keeps_pure {Q : α → σ → Prop} {a : α} (hI : I s) (hQ : Q a s) :
    Keeps I s (pure a : Fallible σ ε α) Q where
  invariant := hI
  grows := le_refl s
  returns b hb := by cases hb; exact hQ

theorem keeps_fail {Q : α → σ → Prop} {e : ε} (hI : I s) :
    Keeps I s (fail e : Fallible σ ε α) Q where
  invariant := hI
  grows := le_refl s
  returns b hb := by cases hb

theorem keeps_lift {Q : α → σ → Prop} {r : Except ε α} (hI : I s) (hQ : ∀ a, r = .ok a → Q a s) :
    Keeps I s (lift r) Q := by
  cases r with
  | ok a => exact keeps_pure hI (hQ a rfl)
  | error e => exact keeps_fail hI

theorem keeps_modify {Q : Unit → σ → Prop} {f : σ → σ} (hI : I (f s)) (hle : s ≤ f s)
    (hQ : Q () (f s)) : Keeps I s (modify f : Fallible σ ε Unit) Q where
  invariant := hI
  grows := hle
  returns b hb := by cases hb; exact hQ

theorem keeps_get (hI : I s) : Keeps I s (get : Fallible σ ε σ) fun a t => a = s ∧ t = s where
  invariant := hI
  grows := le_refl s
  returns b hb := by cases hb; exact ⟨rfl, rfl⟩

/-- What follows starts in a state that meets the invariant, has grown, and meets the
postcondition of what went before. -/
theorem Keeps.bind {x : Fallible σ ε α} {f : α → Fallible σ ε β} {Q : α → σ → Prop}
    {Q' : β → σ → Prop} (hx : Keeps I s x Q)
    (hf : ∀ a t, I t → s ≤ t → Q a t → Keeps I t (f a) Q') : Keeps I s (x >>= f) Q' := by
  rcases hr : x s with ⟨r, t⟩
  obtain ⟨hI, hle, hQ⟩ := hx
  simp only [hr] at hI hle hQ
  cases r with
  | ok a =>
    obtain ⟨hI', hle', hQ'⟩ := hf a t hI hle (hQ a rfl)
    refine ⟨?_, ?_, ?_⟩
    all_goals rw [bind_of_ok hr]
    · exact hI'
    · exact le_trans hle hle'
    · exact hQ'
  | error e =>
    refine ⟨?_, ?_, ?_⟩
    all_goals rw [bind_of_error hr]
    · exact hI
    · exact hle
    · intro b hb
      cases hb

theorem Keeps.imp {x : Fallible σ ε α} {Q Q' : α → σ → Prop} (h : Keeps I s x Q)
    (hQ : ∀ a t, I t → s ≤ t → Q a t → Q' a t) : Keeps I s x Q' where
  invariant := h.invariant
  grows := h.grows
  returns a ha := hQ a _ h.invariant h.grows (h.returns a ha)

/-- A check that stops the program where it fails. -/
theorem keeps_guard {Q : α → σ → Prop} {c : Prop} [Decidable c] {e : ε} {x : Fallible σ ε α}
    (hI : I s) (hx : ¬ c → Keeps I s x Q) : Keeps I s (if c then fail e else x) Q := by
  split
  · exact keeps_fail hI
  · rename_i hc
    exact hx hc

end

/-! ## Success -/

/-- The program returns a value. -/
def Succeeds (s : σ) (x : Fallible σ ε α) : Prop := ∃ a, (x s).1 = .ok a

theorem Succeeds.bind {x : Fallible σ ε α} {f : α → Fallible σ ε β} {a : α} {s t : σ}
    (hx : x s = (.ok a, t)) (hf : Succeeds t (f a)) : Succeeds s (x >>= f) := by
  unfold Succeeds
  rw [bind_of_ok hx]
  exact hf

theorem Keeps.apply [Preorder σ] {I : σ → Prop} {s : σ} {x : Fallible σ ε α} {Q : α → σ → Prop}
    (hx : Keeps I s x Q)
    (h : Succeeds s x) : ∃ a t, x s = (.ok a, t) ∧ I t ∧ s ≤ t ∧ Q a t := by
  obtain ⟨a, ha⟩ := h
  exact ⟨a, (x s).2, Prod.ext ha rfl, hx.invariant, hx.grows, hx.returns a ha⟩

/-! ## What a program appends to a list of the state -/

/-- Whatever the program does, it appends to a list of the state, and what it appends meets
`L`. -/
def Appends {γ : Type} (g : σ → List γ) (L : List γ → Prop) (x : Fallible σ ε α) : Prop :=
  ∀ s, ∃ l, L l ∧ g (x s).2 = g s ++ l

/-- It appends nothing. -/
def Silent {γ : Type} (g : σ → List γ) (x : Fallible σ ε α) : Prop := Appends g (· = []) x

section

variable {γ : Type} {g : σ → List γ} {L : List γ → Prop} {x : Fallible σ ε α}
  {f : α → Fallible σ ε β}

theorem silent_of_eq (h : ∀ s, g (x s).2 = g s) : Silent g x := fun s =>
  ⟨[], rfl, (h s).trans (List.append_nil _).symm⟩

theorem silent_pure (a : α) : Silent g (pure a : Fallible σ ε α) := silent_of_eq fun _ => rfl

theorem silent_fail (e : ε) : Silent g (fail e : Fallible σ ε α) := silent_of_eq fun _ => rfl

theorem silent_get : Silent g (get : Fallible σ ε σ) := silent_of_eq fun _ => rfl

theorem silent_lift (r : Except ε α) : Silent g (lift r) := by
  cases r with
  | ok a => exact silent_pure a
  | error e => exact silent_fail e

theorem Silent.appends (h : Silent g x) (hnil : L []) : Appends g L x := fun s => by
  obtain ⟨l, rfl, hl⟩ := h s
  exact ⟨[], hnil, hl⟩

theorem appends_fail (e : ε) (hnil : L []) : Appends g L (fail e : Fallible σ ε α) :=
  (silent_fail e).appends hnil

/-- What appends something comes after what does not. -/
theorem Silent.then (hx : Silent g x) (hf : ∀ a, Appends g L (f a)) (hnil : L []) :
    Appends g L (x >>= f) := fun s => by
  obtain ⟨l, rfl, hl⟩ := hx s
  rcases hr : x s with ⟨r, t⟩
  rw [hr, List.append_nil] at hl
  cases r with
  | ok a =>
    rw [bind_of_ok hr, ← hl]
    exact hf a t
  | error e =>
    rw [bind_of_error hr, ← hl]
    exact ⟨[], hnil, (List.append_nil _).symm⟩

theorem Silent.bind (hx : Silent g x) (hf : ∀ a, Silent g (f a)) : Silent g (x >>= f) :=
  hx.then hf rfl

/-- What appends something comes before what does not. -/
theorem Appends.bind (hx : Appends g L x) (hf : ∀ a, Silent g (f a)) :
    Appends g L (x >>= f) := fun s => by
  obtain ⟨l, hL, hl⟩ := hx s
  rcases hr : x s with ⟨r, t⟩
  rw [hr] at hl
  cases r with
  | ok a =>
    obtain ⟨m, rfl, hm⟩ := hf a t
    rw [bind_of_ok hr]
    exact ⟨l, hL, by rw [hm, List.append_nil, hl]⟩
  | error e =>
    rw [bind_of_error hr]
    exact ⟨l, hL, hl⟩

theorem appends_guard {c : Prop} [Decidable c] {e : ε} (hnil : L []) (hx : Appends g L x) :
    Appends g L (if c then fail e else x) := by
  split
  · exact appends_fail e hnil
  · exact hx

end

end Fallible

end Jukeboy.Base
