import Mathlib.Order.WellFounded
import Mathlib.Tactic.Common

/-! # Steps that depend on answers from outside

The states of a system each of whose steps depends on an answer. Where a good answer
takes it forward and no answer takes it back, it gets to its end if good answers come
again and again. -/
namespace Jukeboy.Base.Fairness

variable {σ α : Type} {step : α → σ → σ}

/-- The state after so many steps. -/
def states (step : α → σ → σ) (s : σ) (env : Nat → α) : Nat → σ
  | 0 => s
  | n + 1 => step (env n) (states step s env n)

theorem states_invariant {I : σ → Prop} (hstep : ∀ a s, I s → I (step a s)) {s : σ} (h : I s)
    (env : Nat → α) (n : Nat) : I (states step s env n) := by
  induction n with
  | zero => exact h
  | succ n ih => exact hstep _ _ ih

/-- A good answer comes again and again. -/
def Fair (good : α → Prop) (env : Nat → α) : Prop := ∀ n, ∃ m, n ≤ m ∧ good (env m)

/-- **The progress rule.** -/
theorem eventually {I P : σ → Prop} {good : α → Prop} {rel : σ → σ → Prop}
    (hwf : WellFounded rel) (hstep : ∀ a s, I s → I (step a s))
    (hstall : ∀ a s, I s → ¬ P s → step a s = s ∨ rel (step a s) s)
    (hgood : ∀ a s, I s → ¬ P s → good a → rel (step a s) s) {env : Nat → α}
    (hfair : Fair good env) {s : σ} (h : I s) : ∃ n, P (states step s env n) := by
  have hinv := states_invariant hstep h env
  have hfrom : ∀ x n, states step s env n = x → ∃ m, P (states step s env m) := by
    intro x
    induction x using hwf.induction with
    | _ x ih =>
      -- up to the next good answer the system stays where it is, or goes forward
      have hwait : ∀ k n, good (env (n + k)) → states step s env n = x →
          ∃ m, P (states step s env m) := by
        intro k
        induction k with
        | zero =>
          intro n hgoodAnswer hx
          by_cases hP : P x
          · exact ⟨n, hx.symm ▸ hP⟩
          · have hless := hgood _ x (hx ▸ hinv n) hP hgoodAnswer
            exact ih _ hless (n + 1) (by rw [states, hx, Nat.add_zero])
        | succ k ihk =>
          intro n hgoodAnswer hx
          by_cases hP : P x
          · exact ⟨n, hx.symm ▸ hP⟩
          · obtain hsame | hless := hstall (env n) x (hx ▸ hinv n) hP
            · refine ihk (n + 1) ?_ (by rw [states, hx, hsame])
              rwa [Nat.add_assoc, Nat.add_comm 1 k]
            · exact ih _ hless (n + 1) (by rw [states, hx])
      intro n hx
      obtain ⟨m, hm, hgoodAnswer⟩ := hfair n
      exact hwait (m - n) n (by rwa [Nat.add_sub_cancel' hm]) hx
  exact hfrom _ 0 rfl

end Jukeboy.Base.Fairness
