import Mathlib.Data.List.Rotate
import Mathlib.Data.List.Perm.Basic

/-! # Shuffled orders and walks around them

A list is shuffled in place by swaps, which only permute it, and walked around
by a position that wraps at both ends; the position may also be the one of a
walk that has not started. As many steps as there are entries visit every entry
once, from wherever the walk is, and a step back undoes a step forth. -/
namespace Jukeboy.Base.CyclicOrder

variable {α : Type}

/-! ## Shuffling -/

/-- Fisher-Yates from entry `i` down: entry `i` is swapped with entry
`draw i % (i + 1)`, then the same below it. -/
def shuffleFrom (draw : Nat → Nat) : Nat → List α → List α
  | 0, l => l
  | i + 1, l => shuffleFrom draw i (l.swap (i + 1) (draw (i + 1) % (i + 2)))

theorem shuffleFrom_perm (draw : Nat → Nat) (i : Nat) (l : List α) :
    (shuffleFrom draw i l).Perm l := by
  induction i generalizing l with
  | zero => exact .refl l
  | succ i ih => exact (ih _).trans (List.swap_perm ..)

/-- Swaps the first entry away when it is `x`. -/
def avoidFirst [DecidableEq α] (x : α) (j : Nat) (l : List α) : List α :=
  if l.head? = some x then l.swap 0 j else l

theorem avoidFirst_perm [DecidableEq α] (x : α) (j : Nat) (l : List α) :
    (avoidFirst x j l).Perm l := by
  unfold avoidFirst
  split
  · exact List.swap_perm ..
  · exact .refl l

/-- The entry swapped to the front is another one, when no entry occurs twice. -/
theorem avoidFirst_head_ne [DecidableEq α] {x : α} {j : Nat} {l : List α} (hl : l.Nodup)
    (hpos : 0 < j) (hj : j < l.length) : (avoidFirst x j l).head? ≠ some x := by
  unfold avoidFirst
  split
  · next hx =>
    cases l with
    | nil => cases hx
    | cons a l =>
      obtain rfl : a = x := Option.some.inj hx
      obtain ⟨k, rfl⟩ : ∃ k, j = k + 1 := ⟨j - 1, by omega⟩
      have hk : k < l.length := Nat.lt_of_succ_lt_succ hj
      have hswap : ((a :: l).swap 0 (k + 1)).head? = some l[k] := by
        simp [List.swap, List.getElem?_eq_getElem hk]
      rw [hswap]
      intro heq
      exact (List.nodup_cons.mp hl).1 (Option.some.inj heq ▸ List.getElem_mem hk)
  · next hx => exact hx

/-! ## Walking -/

/-- The position after a step forth; `none` is the walk that has not started. -/
def nextPos (n : Nat) : Option Nat → Nat
  | none => 0
  | some p => if n ≤ p + 1 then 0 else p + 1

/-- The position after a step back. -/
def prevPos (n : Nat) : Option Nat → Nat
  | none => n - 1
  | some 0 => n - 1
  | some (p + 1) => p

theorem nextPos_lt {n : Nat} (hn : 0 < n) (pos : Option Nat) : nextPos n pos < n := by
  cases pos with
  | none => exact hn
  | some p =>
    simp only [nextPos]
    split <;> omega

theorem prevPos_lt {n : Nat} {pos : Option Nat} (hn : 0 < n) (hpos : ∀ p ∈ pos, p < n) :
    prevPos n pos < n := by
  match pos with
  | none => exact Nat.sub_one_lt (by omega)
  | some 0 => exact Nat.sub_one_lt (by omega)
  | some (p + 1) => exact Nat.lt_of_succ_lt (hpos _ rfl)

theorem nextPos_some {n p : Nat} (hp : p < n) : nextPos n (some p) = (p + 1) % n := by
  simp only [nextPos]
  split
  · next h => rw [show p + 1 = n by omega, Nat.mod_self]
  · next h => rw [Nat.mod_eq_of_lt (by omega)]

/-- A step back undoes a step forth of a walk that has started. -/
theorem prevPos_nextPos {n p : Nat} (hp : p < n) : prevPos n (some (nextPos n (some p))) = p := by
  simp only [nextPos]
  split
  · change n - 1 = p
    omega
  · rfl

theorem nextPos_ne {n p : Nat} (hn : 2 ≤ n) (hp : p < n) : nextPos n (some p) ≠ p := by
  simp only [nextPos]
  split <;> omega

theorem prevPos_ne {n p : Nat} (hn : 2 ≤ n) (hp : p < n) : prevPos n (some p) ≠ p := by
  cases p with
  | zero =>
    change n - 1 ≠ 0
    omega
  | succ p => exact Nat.ne_of_lt (Nat.lt_succ_self p)

/-- A step forth from the position `k` after `q`, around the order. -/
theorem nextPos_add {n : Nat} (hn : 0 < n) (q k : Nat) :
    nextPos n (some ((q + k) % n)) = (q + (k + 1)) % n := by
  rw [nextPos_some (Nat.mod_lt _ hn), Nat.mod_add_mod, Nat.add_assoc]

/-- Every position is at most a turn away. -/
theorem exists_add_mod {n q j : Nat} (hq : q < n) (hj : j < n) : ∃ k, k < n ∧ (q + k) % n = j := by
  refine ⟨(j + (n - q)) % n, Nat.mod_lt _ (by omega), ?_⟩
  rw [Nat.add_mod_mod, show q + (j + (n - q)) = j + n by omega, Nat.add_mod_right,
    Nat.mod_eq_of_lt hj]

/-- The entries visited by the first steps are the first entries of the order
turned to where the walk goes next. -/
theorem take_rotate_succ {order : List α} (q : Nat) {k : Nat} (hk : k < order.length) {x : α}
    (hx : order[(q + k) % order.length]? = some x) :
    (order.rotate q).take (k + 1) = (order.rotate q).take k ++ [x] := by
  have hlen : k < (order.rotate q).length := by rwa [List.length_rotate]
  rw [List.take_add_one, List.getElem?_eq_getElem hlen, List.getElem_rotate]
  rw [Nat.add_comm, List.getElem?_eq_getElem (Nat.mod_lt _ (by omega))] at hx
  rw [Option.some.inj hx]
  rfl

/-- **As many steps as entries visit every entry once.** -/
theorem take_rotate_perm (order : List α) (q : Nat) :
    ((order.rotate q).take order.length).Perm order := by
  rw [List.take_of_length_le (List.length_rotate ..).le]
  exact List.rotate_perm order q

end Jukeboy.Base.CyclicOrder
