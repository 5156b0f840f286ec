import Mathlib.Data.List.Pairwise
import Mathlib.Tactic.Common

/-! # Backlogs

Items wait in a line and are served from its head; some leave it unserved. Every
item has a key, and the keys of new items are larger than those before. -/
namespace Jukeboy.Base.Backlog

variable {α : Type} {key : α → Nat} {served line line' : List α} {x y : α}

/-- The keys grow along what was served, and on along the line. -/
def InOrder (key : α → Nat) (served line : List α) : Prop :=
  (served ++ line).Pairwise fun x y => key x < key y

theorem inOrder_nil : InOrder key [] [] := List.Pairwise.nil

theorem InOrder.served_pairwise (h : InOrder key served line) :
    served.Pairwise fun x y => key x < key y := (List.pairwise_append.mp h).1

theorem InOrder.line_pairwise (h : InOrder key served line) :
    line.Pairwise fun x y => key x < key y := (List.pairwise_append.mp h).2.1

theorem InOrder.lt (h : InOrder key served line) (hx : x ∈ served) (hy : y ∈ line) :
    key x < key y := (List.pairwise_append.mp h).2.2 x hx y hy

/-- What waits has not been served. -/
theorem InOrder.not_served (h : InOrder key served line) (hx : x ∈ line) : x ∉ served :=
  fun hs => Nat.lt_irrefl _ (h.lt hs hx)

/-- Nothing behind an item that waits has been served. -/
theorem InOrder.not_served_of_le (h : InOrder key served line) (hx : x ∈ line)
    (hle : key x ≤ key y) : y ∉ served :=
  fun hs => absurd (h.lt hs hx) (Nat.not_lt.mpr hle)

/-- A new item joins at the end. -/
theorem InOrder.push (h : InOrder key served line)
    (hx : ∀ y ∈ served ++ line, key y < key x) : InOrder key served (line ++ [x]) := by
  rw [InOrder, ← List.append_assoc]
  refine List.pairwise_append.mpr ⟨h, List.pairwise_singleton _ _, fun y hy z hz => ?_⟩
  rw [List.mem_singleton.mp hz]
  exact hx y hy

/-- The head is served. -/
theorem InOrder.serve (h : InOrder key served (x :: line)) : InOrder key (served ++ [x]) line := by
  rw [InOrder, List.append_assoc]
  exact h

/-- Items leave the line unserved. -/
theorem InOrder.leave (h : InOrder key served line) (hsub : line'.Sublist line) :
    InOrder key served line' :=
  List.Pairwise.sublist ((List.Sublist.refl served).append hsub) h

theorem InOrder.nodup (h : InOrder key served line) : line.Nodup := by
  refine List.Pairwise.imp ?_ h.line_pairwise
  intro x y hlt heq
  rw [heq] at hlt
  exact Nat.lt_irrefl _ hlt

end Jukeboy.Base.Backlog
