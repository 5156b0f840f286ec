import Mathlib.Tactic.Common

/-! # Programs that call out

A program is a tree: it is done, or it makes a call and goes on with whatever
the call returns. What holds of the calls of every run is said of the tree. -/
namespace Jukeboy.Base.Calls

variable {C : Type} {R : C → Type} {α β : Type}

/-- A program whose call `c` returns something of type `R c`. -/
inductive Prog (R : C → Type) (α : Type) where
  | done (a : α)
  | call (c : C) (k : R c → Prog R α)

namespace Prog

def bind : Prog R α → (α → Prog R β) → Prog R β
  | .done a, f => f a
  | .call c k, f => .call c fun r => (k r).bind f

instance : Monad (Prog R) where
  pure := .done
  bind := bind

/-- The program that makes one call and returns what it returns. -/
def perform (c : C) : Prog R (R c) := .call c .done

/-! ## Runs -/

/-- The calls of a run, and what it returns. -/
inductive Trace : Prog R α → List C → α → Prop where
  | done (a : α) : Trace (.done a) [] a
  | call {c : C} {k : R c → Prog R α} {cs : List C} {a : α} (r : R c) (h : Trace (k r) cs a) :
      Trace (.call c k) (c :: cs) a

/-- Every program comes to an end, whatever its calls return. -/
theorem exists_trace (answer : ∀ c, R c) (p : Prog R α) : ∃ cs a, Trace p cs a := by
  induction p with
  | done a => exact ⟨[], a, .done a⟩
  | call c k ih =>
    obtain ⟨cs, a, h⟩ := ih (answer c)
    exact ⟨c :: cs, a, .call _ h⟩

theorem Trace.bind_inv {p : Prog R α} {f : α → Prog R β} {cs : List C} {b : β}
    (h : Trace (p >>= f) cs b) :
    ∃ xs ys a, Trace p xs a ∧ Trace (f a) ys b ∧ cs = xs ++ ys := by
  induction p generalizing cs with
  | done a => exact ⟨[], cs, a, .done a, h, rfl⟩
  | call c k ih =>
    cases h with
    | call r h =>
      obtain ⟨xs, ys, a, hp, hf, rfl⟩ := ih r h
      exact ⟨c :: xs, ys, a, .call r hp, hf, rfl⟩

/-! ## What every run calls -/

/-- Every call meets `P`. -/
def Only (P : C → Prop) : Prog R α → Prop
  | .done _ => True
  | .call c k => P c ∧ ∀ r, (k r).Only P

/-- Calls that meet `P`, and then, as the last one, a call that meets `Q`. -/
def Ends (P Q : C → Prop) : Prog R α → Prop
  | .done _ => False
  | .call c k => (Q c ∧ ∀ r, ∃ a, k r = .done a) ∨ (P c ∧ ∀ r, (k r).Ends P Q)

variable {P Q : C → Prop}

theorem only_pure (a : α) : Only P (pure a : Prog R α) := trivial

theorem only_perform {c : C} (h : P c) : Only P (perform c : Prog R (R c)) :=
  ⟨h, fun _ => trivial⟩

theorem Only.bind {p : Prog R α} {f : α → Prog R β} (hp : p.Only P) (hf : ∀ a, (f a).Only P) :
    (p >>= f).Only P := by
  induction p with
  | done a => exact hf a
  | call c k ih => exact ⟨hp.1, fun r => ih r (hp.2 r)⟩

theorem ends_perform {c : C} (h : Q c) : Ends P Q (perform c : Prog R (R c)) :=
  .inl ⟨h, fun r => ⟨r, rfl⟩⟩

theorem Ends.bind {p : Prog R α} {f : α → Prog R β} (hp : p.Only P) (hf : ∀ a, (f a).Ends P Q) :
    (p >>= f).Ends P Q := by
  induction p with
  | done a => exact hf a
  | call c k ih => exact .inr ⟨hp.1, fun r => ih r (hp.2 r)⟩

/-- What a program does after its last call can only be to return. -/
theorem Ends.bind_pure {p : Prog R α} (f : α → β) (hp : p.Ends P Q) :
    (p >>= fun a => pure (f a)).Ends P Q := by
  induction p with
  | done a => exact hp
  | call c k ih =>
    rcases hp with ⟨hc, hk⟩ | ⟨hc, hk⟩
    · refine .inl ⟨hc, fun r => ?_⟩
      obtain ⟨a, ha⟩ := hk r
      exact ⟨f a, congrArg (Prog.bind · fun a => pure (f a)) ha⟩
    · exact .inr ⟨hc, fun r => ih r (hk r)⟩

theorem Only.trace {p : Prog R α} {cs : List C} {a : α} (h : p.Only P) (ht : Trace p cs a) :
    ∀ c ∈ cs, P c := by
  induction ht with
  | done => exact fun c hc => absurd hc List.not_mem_nil
  | call r _ ih =>
    intro c hc
    rcases List.mem_cons.mp hc with rfl | hc
    · exact h.1
    · exact ih (h.2 r) c hc

theorem Ends.trace {p : Prog R α} {cs : List C} {a : α} (h : p.Ends P Q) (ht : Trace p cs a) :
    ∃ xs c, cs = xs ++ [c] ∧ (∀ x ∈ xs, P x) ∧ Q c := by
  induction ht with
  | done => exact h.elim
  | @call c k cs a r ht ih =>
    rcases h with ⟨hc, hk⟩ | ⟨hc, hk⟩
    · obtain ⟨b, hb⟩ := hk r
      rw [hb] at ht
      cases ht
      exact ⟨[], c, rfl, fun x hx => absurd hx List.not_mem_nil, hc⟩
    · obtain ⟨xs, d, rfl, hxs, hd⟩ := ih (hk r)
      refine ⟨c :: xs, d, rfl, fun x hx => ?_, hd⟩
      rcases List.mem_cons.mp hx with rfl | hx
      · exact hc
      · exact hxs x hx

end Prog

end Jukeboy.Base.Calls
