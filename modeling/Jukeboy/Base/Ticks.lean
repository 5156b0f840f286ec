import Mathlib.Algebra.GroupWithZero.Nat
import Mathlib.Order.Basic
import Mathlib.Tactic.Common

/-! # Ticks of a counter that wraps

A tick is what a 32-bit counter shows of a time. Two ticks compare as their times do as
long as the counter does not wrap in between, and only then. -/
namespace Jukeboy.Base.Ticks

def tick (time : Nat) : UInt32 := UInt32.ofNat time

/-- How often the counter has wrapped by then. -/
def period (time : Nat) : Nat := time / 2 ^ 32

variable {a b : Nat}

@[simp] theorem toNat_tick (time : Nat) : (tick time).toNat = time % 2 ^ 32 :=
  UInt32.toNat_ofNat'

theorem tick_add (time : Nat) (ticks : UInt32) : tick time + ticks = tick (time + ticks.toNat) := by
  rw [← UInt32.toNat_inj, UInt32.toNat_add, toNat_tick, toNat_tick, Nat.mod_add_mod]

/-- Within a period ticks compare as times do. -/
theorem tick_le_iff (h : period a = period b) : tick a ≤ tick b ↔ a ≤ b := by
  unfold period at h
  rw [UInt32.le_iff_toNat_le, toNat_tick, toNat_tick]
  omega

/-- Ticks of two times in order, close to each other, are in order within a period only. -/
theorem tick_le_iff_of_le (hle : a ≤ b) (hnear : b < a + 2 ^ 32) :
    tick a ≤ tick b ↔ period a = period b := by
  unfold period
  rw [UInt32.le_iff_toNat_le, toNat_tick, toNat_tick]
  omega

theorem tick_lt_iff_of_lt (hlt : a < b) (hnear : b < a + 2 ^ 32) :
    tick a < tick b ↔ period a = period b := by
  unfold period
  rw [UInt32.lt_iff_toNat_lt, toNat_tick, toNat_tick]
  omega

/-- **A comparison of ticks is right** exactly when the counter does not wrap in between. -/
theorem compare_iff (hab : a < b + 2 ^ 32) (hba : b < a + 2 ^ 32) :
    (tick a ≤ tick b ↔ a ≤ b) ↔ period a = period b := by
  by_cases hle : a ≤ b
  · rw [tick_le_iff_of_le hle hba]
    exact ⟨fun h => h.mpr hle, fun h => iff_of_true h hle⟩
  · have hlt := Nat.lt_of_not_le hle
    rw [← UInt32.not_lt, tick_lt_iff_of_lt hlt hab]
    constructor
    · exact fun h => (by_contra fun hne => hle (h.mp fun heq => hne heq.symm))
    · exact fun h => iff_of_false (not_not.mpr h.symm) hle

/-- The difference of two ticks is the one of their times, wrapped or not. -/
theorem toNat_tick_sub (hle : a ≤ b) (hnear : b < a + 2 ^ 32) :
    (tick b - tick a).toNat = b - a := by
  rw [UInt32.toNat_sub, toNat_tick, toNat_tick]
  omega

/-- In general the difference counts modulo the counter. -/
theorem toNat_tick_sub_mod (hle : a ≤ b) : (tick b - tick a).toNat = (b - a) % 2 ^ 32 := by
  rw [UInt32.toNat_sub, toNat_tick, toNat_tick]
  omega

end Jukeboy.Base.Ticks
