import Mathlib.Data.Nat.ModEq
import Mathlib.Logic.Function.Basic
import Mathlib.Tactic.Common

/-! # A ring that keeps the most recent values

A fixed number of slots, the slot to be written next and a count that stops at the
number of slots. What the ring holds are the last values pushed; once it is full, the
slot to be written next holds the oldest of them. -/
namespace Jukeboy.Base.RecentRing

variable {α β : Type} {n : Nat}

structure Ring (α : Type) (n : Nat) where
  slots : Fin n → α
  count : Nat
  next : Fin n

namespace Ring

def push (r : Ring α n) (a : α) : Ring α n where
  slots := Function.update r.slots r.next a
  count := if r.count < n then r.count + 1 else r.count
  next := ⟨(r.next + 1) % n, Nat.mod_lt _ r.next.pos⟩

/-- The ring holds the first values of `log`, which lists all values, the newest first. -/
structure Holds (r : Ring α n) (log : List α) : Prop where
  count : r.count = min n log.length
  next : r.next ≡ log.length [MOD n]
  slots : ∀ i a, log[i]? = some a → i < n →
    ∀ k : Fin n, k + (i + 1) ≡ log.length [MOD n] → r.slots k = a

theorem holds_nil (slots : Fin n → α) (h : 0 < n) : Holds ⟨slots, 0, ⟨0, h⟩⟩ [] where
  count := by simp
  next := rfl
  slots := by simp

variable {r : Ring α n} {log : List α}

theorem Holds.push (h : r.Holds log) (a : α) : (r.push a).Holds (a :: log) where
  count := by
    have := h.count
    simp only [Ring.push, List.length_cons]
    split <;> omega
  next := (Nat.mod_modEq _ n).trans (h.next.add_right 1)
  slots := by
    intro i b hb hi k hk
    rw [List.length_cons] at hk
    cases i with
    | zero =>
      have hlast : k = r.next :=
        Fin.ext ((Nat.ModEq.add_right_cancel' 1 hk).trans h.next.symm |>.eq_of_lt_of_lt k.2 r.next.2)
      cases hb
      rw [hlast]
      exact Function.update_self ..
    | succ i =>
      have hold : k + (i + 1) ≡ log.length [MOD n] := Nat.ModEq.add_right_cancel' 1 hk
      -- The slot written over is `i + 1 < n` places behind this one.
      have hne : k ≠ r.next := by
        rintro rfl
        have hzero : i + 1 ≡ 0 [MOD n] :=
          Nat.ModEq.add_left_cancel' r.next (hold.trans h.next.symm)
        exact absurd (hzero.eq_of_lt_of_lt hi r.next.pos) (Nat.succ_ne_zero i)
      exact (Function.update_of_ne hne ..).trans (h.slots i b hb (Nat.lt_of_succ_lt hi) k hold)

/-- **The slot to be written next** holds the oldest of the last `n` values. -/
theorem Holds.oldest (h : r.Holds log) (hfull : n ≤ r.count) :
    log[n - 1]? = some (r.slots r.next) := by
  have hn := r.next.pos
  have hlen : n - 1 < log.length := by
    have := h.count
    omega
  have hat := List.getElem?_eq_getElem hlen
  rw [hat, h.slots (n - 1) _ hat (by omega) r.next]
  rw [Nat.sub_add_cancel hn]
  exact (Nat.add_modEq_right).trans h.next

/-- The ring is not full while there are too few values to fill it. -/
theorem Holds.lt_iff (h : r.Holds log) : r.count < n ↔ log[n - 1]? = none := by
  have hn := r.next.pos
  have := h.count
  rw [List.getElem?_eq_none_iff]
  omega

end Ring

end Jukeboy.Base.RecentRing
