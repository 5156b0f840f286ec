import Mathlib.Algebra.GroupWithZero.Nat
import Mathlib.Data.List.Basic
import Mathlib.Tactic.Common

/-! # Filling a room in order

Entries of different sizes go into a room one after the other, until one does not fit.
What is taken is the longest beginning that fits, and whether a given space is left
beside it can be read off the beginnings of the entries. -/
namespace Jukeboy.Base.Filling

variable {α : Type} (cost : α → Nat)

/-- The entries that go in, in order, before the first that does not fit. -/
def fill : Nat → List α → List α
  | _, [] => []
  | room, a :: l => if cost a ≤ room then a :: fill (room - cost a) l else []

def total (l : List α) : Nat := (l.map cost).sum

@[simp] theorem total_nil : total cost [] = 0 := rfl

@[simp] theorem total_cons (a : α) (l : List α) : total cost (a :: l) = cost a + total cost l := rfl

theorem total_append (a b : List α) : total cost (a ++ b) = total cost a + total cost b := by
  rw [total, List.map_append, List.sum_append]
  rfl

variable {cost} {l pre : List α} {room : Nat}

theorem total_le_mul {bound : Nat} (h : ∀ a ∈ l, cost a ≤ bound) :
    total cost l ≤ l.length * bound := by
  induction l with
  | nil => exact Nat.zero_le _
  | cons a l ih =>
    have hfirst := h a List.mem_cons_self
    have hrest := ih fun b hb => h b (List.mem_cons_of_mem a hb)
    rw [total_cons, List.length_cons, Nat.succ_mul]
    omega

theorem fill_isPrefix (room : Nat) (l : List α) : fill cost room l <+: l := by
  induction l generalizing room with
  | nil => exact List.nil_prefix
  | cons a l ih =>
    rw [fill]
    split
    · exact (List.prefix_cons_inj a).mpr (ih _)
    · exact List.nil_prefix

theorem total_fill_le (room : Nat) (l : List α) : total cost (fill cost room l) ≤ room := by
  induction l generalizing room with
  | nil => exact Nat.zero_le _
  | cons a l ih =>
    rw [fill]
    split
    · next hfits =>
      have := ih (room - cost a)
      rw [total_cons]
      omega
    · exact Nat.zero_le _

/-- **Every beginning that fits is taken.** -/
theorem prefix_fill (hpre : pre <+: l) (h : total cost pre ≤ room) : pre <+: fill cost room l := by
  induction pre generalizing room l with
  | nil => exact List.nil_prefix
  | cons a pre ih =>
    obtain ⟨more, rfl⟩ := hpre
    rw [total_cons] at h
    rw [List.cons_append, fill, if_pos (by omega), List.prefix_cons_inj]
    exact ih (List.prefix_append ..) (by omega)

/-- The first entry is taken when it fits. -/
theorem fill_ne_nil (hl : l ≠ []) (h : ∀ a ∈ l, cost a ≤ room) : fill cost room l ≠ [] := by
  cases l with
  | nil => exact absurd rfl hl
  | cons a l =>
    rw [fill, if_pos (h a List.mem_cons_self)]
    intro h
    cases h

theorem fill_eq_take (room : Nat) (l : List α) :
    fill cost room l = l.take (fill cost room l).length :=
  List.prefix_iff_eq_take.mp (fill_isPrefix room l)

/-- **The space that is left**: no entry is smaller than it, so it is there exactly when
every beginning that fits leaves it. -/
theorem spare_iff {spare : Nat} (hcost : ∀ a ∈ l, spare ≤ cost a) :
    total cost (fill cost room l) + spare ≤ room ↔
      ∀ k, k ≤ l.length → total cost (l.take k) ≤ room → total cost (l.take k) + spare ≤ room := by
  constructor
  · intro h k hk hfits
    obtain ⟨more, hmore⟩ := prefix_fill (l.take_prefix k) hfits
    have hsplit := total_append cost (l.take k) more
    rw [hmore] at hsplit
    cases more with
    | nil =>
      rw [total_nil] at hsplit
      omega
    | cons a more =>
      -- the next entry was taken as well, and it is at least as large
      have hmem : a ∈ fill cost room l := by
        rw [← hmore]
        exact List.mem_append_right _ List.mem_cons_self
      have hlarge := hcost a ((fill_isPrefix room l).subset hmem)
      rw [total_cons] at hsplit
      omega
  · intro h
    have hlen : (fill cost room l).length ≤ l.length := (fill_isPrefix room l).length_le
    have hall := h _ hlen
    rw [← fill_eq_take] at hall
    exact hall (total_fill_le room l)

end Jukeboy.Base.Filling
