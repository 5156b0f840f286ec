import Mathlib.Data.List.Basic
import Mathlib.Tactic.Common

/-! # Stream buffers

Bytes wait between one writer and one reader. A send takes what fits, a receive gives what
is there, and a reset drops what waits. Whatever the two sides do, what has been taken out
and what waits is what was sent, and frames stay whole that were sent whole. -/
namespace Jukeboy.Base.StreamBuffer

variable {α : Type} {capacity : Nat}

/-- What waits, and never more of it than there is room for. -/
structure Buffer (α : Type) (capacity : Nat) where
  held : List α
  fits : held.length ≤ capacity

namespace Buffer

variable (b : Buffer α capacity)

def empty : Buffer α capacity := ⟨[], Nat.zero_le _⟩

def room : Nat := capacity - b.held.length

/-- What a send of `data` puts in. -/
def accepted (data : List α) : List α := data.take b.room

theorem length_accepted_le (data : List α) : (b.accepted data).length ≤ b.room := by
  rw [accepted, List.length_take]
  exact Nat.min_le_left _ _

theorem fits_accepted (data : List α) : (b.held ++ b.accepted data).length ≤ capacity := by
  have hroom := b.length_accepted_le data
  have hfits := b.fits
  rw [List.length_append]
  unfold room at hroom
  omega

def send (data : List α) : Buffer α capacity := ⟨b.held ++ b.accepted data, b.fits_accepted data⟩

/-- What a receive of up to `n` gives. -/
def given (n : Nat) : List α := b.held.take n

theorem fits_drop (n : Nat) : (b.held.drop n).length ≤ capacity := by
  rw [List.length_drop]
  exact Nat.le_trans (Nat.sub_le _ _) b.fits

def receive (n : Nat) : Buffer α capacity := ⟨b.held.drop n, b.fits_drop n⟩

@[simp] theorem held_empty : (empty : Buffer α capacity).held = [] := rfl
@[simp] theorem held_send (data : List α) : (b.send data).held = b.held ++ b.accepted data := rfl
@[simp] theorem held_receive (n : Nat) : (b.receive n).held = b.held.drop n := rfl

/-- A send leaves the rest of the data with the writer. -/
theorem accepted_append_drop (data : List α) : b.accepted data ++ data.drop b.room = data :=
  List.take_append_drop _ _

/-- A receive leaves the rest of what waits. -/
theorem given_append_held (n : Nat) : b.given n ++ (b.receive n).held = b.held :=
  List.take_append_drop _ _

end Buffer

/-! ## Nothing is lost -/

/-- How bytes have left the buffer. -/
inductive Taken (α : Type) where
  | received (bytes : List α)
  | dropped (bytes : List α)

def Taken.bytes : Taken α → List α
  | .received bytes => bytes
  | .dropped bytes => bytes

/-- What the reader got of it. -/
def Taken.reads : Taken α → List α
  | .received bytes => bytes
  | .dropped _ => []

/-- What was taken out, in the order it was, and what waits is what was sent. -/
def Flow (b : Buffer α capacity) (sent : List α) (taken : List (Taken α)) : Prop :=
  taken.flatMap Taken.bytes ++ b.held = sent

variable {b : Buffer α capacity} {sent : List α} {taken : List (Taken α)}

theorem Flow.empty : Flow (Buffer.empty : Buffer α capacity) [] [] := rfl

theorem Flow.send (h : Flow b sent taken) (data : List α) :
    Flow (b.send data) (sent ++ b.accepted data) taken := by
  unfold Flow at h ⊢
  rw [Buffer.held_send, ← List.append_assoc, h]

theorem Flow.receive (h : Flow b sent taken) (n : Nat) :
    Flow (b.receive n) sent (taken ++ [.received (b.given n)]) := by
  unfold Flow at h ⊢
  rw [List.flatMap_append, List.flatMap_singleton, List.append_assoc]
  show _ ++ (b.given n ++ (b.receive n).held) = _
  rw [b.given_append_held, h]

theorem Flow.reset (h : Flow b sent taken) :
    Flow (Buffer.empty : Buffer α capacity) sent (taken ++ [.dropped b.held]) := by
  unfold Flow at h ⊢
  rw [List.flatMap_append, List.flatMap_singleton, Buffer.held_empty, List.append_nil]
  exact h

/-! ## Whole frames -/

/-- The bytes are frames of `k`, none of them cut. -/
def Whole (k : Nat) (bytes : List α) : Prop := k ∣ bytes.length

variable {k : Nat} {data more : List α}

theorem Whole.nil (k : Nat) : Whole k ([] : List α) := ⟨0, rfl⟩

theorem Whole.append (h : Whole k data) (hmore : Whole k more) : Whole k (data ++ more) := by
  unfold Whole
  rw [List.length_append]
  exact Nat.dvd_add h hmore

theorem Whole.flatten {blocks : List (List α)} (h : ∀ block ∈ blocks, Whole k block) :
    Whole k blocks.flatten := by
  induction blocks with
  | nil => exact .nil k
  | cons block blocks ih =>
    rw [List.flatten_cons]
    exact (h block (List.mem_cons_self ..)).append (ih fun b hb => h b (List.mem_cons_of_mem _ hb))

theorem Whole.take {n : Nat} (h : Whole k data) (hn : k ∣ n) : Whole k (data.take n) := by
  unfold Whole
  rw [List.length_take]
  rcases Nat.le_total n data.length with hle | hle
  · rwa [Nat.min_eq_left hle]
  · rw [Nat.min_eq_right hle]
    exact h

theorem Whole.drop {n : Nat} (h : Whole k data) (hn : k ∣ n) : Whole k (data.drop n) := by
  unfold Whole
  rw [List.length_drop]
  exact Nat.dvd_sub h hn

/-- The room for more is a whole number of frames. -/
theorem Whole.room (h : Whole k b.held) (hcapacity : k ∣ capacity) : k ∣ b.room :=
  Nat.dvd_sub hcapacity h

end Jukeboy.Base.StreamBuffer
