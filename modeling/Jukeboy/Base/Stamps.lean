import Mathlib.Order.Basic
import Mathlib.Order.Nat
import Mathlib.Tactic.Common

/-! # Stamps drawn from one counter

Records carry the number drawn when they were last written. As long as every
write draws a number that was not drawn before, a later write carries a larger
number than an earlier one. -/
namespace Jukeboy.Base.Stamps

variable {ι : Type}

/-- The next number to draw, the stamp of every record there is, and when each
record was last written. -/
structure Stamped (ι : Type) where
  next : Nat
  last : ι → Option Nat
  written : ι → Nat

/-- Nothing was written after `now`, every stamp has been drawn, and a record
written later has a larger stamp. -/
structure Ordered (now : Nat) (x : Stamped ι) : Prop where
  below : ∀ i n, x.last i = some n → n < x.next
  past : ∀ i n, x.last i = some n → x.written i ≤ now
  later : ∀ i j m n, x.last i = some m → x.last j = some n → x.written i < x.written j → m < n

/-- The records of `T` are written with numbers drawn on the way; the others
stay or go. -/
structure Restamps (now : Nat) (T : ι → Prop) (x y : Stamped ι) : Prop where
  next : x.next ≤ y.next
  drawn : ∀ i n, T i → y.last i = some n → x.next ≤ n ∧ n < y.next
  others : ∀ i n, ¬ T i → y.last i = some n → x.last i = some n
  written : ∀ i, T i → y.written i = now
  unwritten : ∀ i, ¬ T i → y.written i = x.written i

theorem ordered_of_none {now : Nat} {x : Stamped ι} (h : ∀ i, x.last i = none) : Ordered now x where
  below i _ hi := by cases (h i).symm.trans hi
  past i _ hi := by cases (h i).symm.trans hi
  later i _ _ _ hi := by cases (h i).symm.trans hi

theorem Ordered.mono {now now' : Nat} {x : Stamped ι} (h : Ordered now x) (hle : now ≤ now') :
    Ordered now' x where
  below := h.below
  past i n hi := (h.past i n hi).trans hle
  later := h.later

theorem Restamps.ordered {now : Nat} {T : ι → Prop} {x y : Stamped ι} (h : Restamps now T x y)
    (hx : Ordered now x) : Ordered now y where
  below i n hi := by
    by_cases hT : T i
    · exact (h.drawn i n hT hi).2
    · exact (hx.below i n (h.others i n hT hi)).trans_le h.next
  past i n hi := by
    by_cases hT : T i
    · exact (h.written i hT).le
    · rw [h.unwritten i hT]
      exact hx.past i n (h.others i n hT hi)
  later i j m n hi hj hlt := by
    by_cases hTi : T i
    · -- nothing is written after `now`
      by_cases hTj : T j
      · rw [h.written i hTi, h.written j hTj] at hlt
        exact absurd hlt (Nat.lt_irrefl _)
      · rw [h.written i hTi, h.unwritten j hTj] at hlt
        exact absurd (hx.past j n (h.others j n hTj hj)) (Nat.not_le.mpr hlt)
    · by_cases hTj : T j
      · exact (hx.below i m (h.others i m hTi hi)).trans_le (h.drawn j n hTj hj).1
      · rw [h.unwritten i hTi, h.unwritten j hTj] at hlt
        exact hx.later i j m n (h.others i m hTi hi) (h.others j n hTj hj) hlt

end Jukeboy.Base.Stamps
