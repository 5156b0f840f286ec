import Jukeboy.Base.Framing

/-! # A queue that carries frames

A sender cuts the bytes of its frames into pieces and puts them into a queue. A reader
takes the pieces out again and holds the part of a frame that has arrived. Which frames
are on the way can be read off what the reader holds and the queue, and neither sending
nor taking loses one. -/
namespace Jukeboy.Base.Channel

open Jukeboy.Base.Framing

variable {β φ : Type}

/-! ## Cutting -/

/-- Pieces of `n`, the last one perhaps shorter; every turn takes something off. -/
def cutFrom (n : Nat) : Nat → List β → List (List β)
  | 0, _ => []
  | fuel + 1, bytes =>
    if bytes.length = 0 then [] else bytes.take n :: cutFrom n fuel (bytes.drop n)

def cut (n : Nat) (bytes : List β) : List (List β) := cutFrom n bytes.length bytes

variable {n : Nat}

theorem cutFrom_spec (hn : 0 < n) {fuel : Nat} {bytes : List β} (hfuel : bytes.length ≤ fuel) :
    (cutFrom n fuel bytes).flatten = bytes ∧
      ∀ piece ∈ cutFrom n fuel bytes, piece ≠ [] ∧ piece.length ≤ n := by
  induction fuel generalizing bytes with
  | zero =>
    rw [List.length_eq_zero_iff.mp (Nat.le_zero.mp hfuel)]
    exact ⟨rfl, fun _ h => by cases h⟩
  | succ fuel ih =>
    rw [cutFrom]
    by_cases hnil : bytes.length = 0
    · rw [if_pos hnil, List.length_eq_zero_iff.mp hnil]
      exact ⟨rfl, fun _ h => by cases h⟩
    · rw [if_neg hnil]
      have hlen : (bytes.drop n).length = bytes.length - n := List.length_drop
      have hfewer : (bytes.drop n).length ≤ fuel := by omega
      obtain ⟨hflatten, hpieces⟩ := ih hfewer
      refine ⟨?_, ?_⟩
      · rw [List.flatten_cons, hflatten, List.take_append_drop]
      · intro piece hmem
        obtain rfl | hmem := List.mem_cons.mp hmem
        · refine ⟨?_, List.length_take_le _ _⟩
          intro hempty
          have hzero := congrArg List.length hempty
          rw [List.length_take, List.length_nil] at hzero
          omega
        · exact hpieces piece hmem

theorem flatten_cut (hn : 0 < n) (bytes : List β) : (cut n bytes).flatten = bytes :=
  (cutFrom_spec hn (Nat.le_refl _)).1

theorem mem_cut (hn : 0 < n) {bytes piece : List β} (h : piece ∈ cut n bytes) :
    piece ≠ [] ∧ piece.length ≤ n :=
  (cutFrom_spec hn (Nat.le_refl _)).2 piece h

/-! ## Frames on the way -/

/-- These frames are on the way: the reader holds `left`, a part of the first of them,
and the pieces in the queue hold the rest. -/
structure Carries (encode : φ → List β) (left : List β) (pieces : List (List β))
    (frames : List φ) : Prop where
  bytes : left ++ pieces.flatten = stream encode frames
  part : Partial encode frames left

variable {encode : φ → List β} {left piece : List β} {pieces : List (List β)} {frames : List φ}

theorem Carries.empty (encode : φ → List β) : Carries encode [] [] [] := ⟨rfl, rfl⟩

/-- A queue that has run empty leaves no frame on the way. -/
theorem Carries.idle (h : Carries encode left [] frames) : left = [] ∧ frames = [] := by
  obtain ⟨hbytes, hpart⟩ := h
  cases frames with
  | nil => exact ⟨hpart, rfl⟩
  | cons f frames =>
    have hlen := congrArg List.length hbytes
    simp only [List.flatten_nil, List.append_nil, stream_cons, List.length_append] at hlen
    have hlt : left.length < (encode f).length := hpart
    omega

/-- Sending puts frames behind those on the way. -/
theorem Carries.send (h : Carries encode left pieces frames) (hne : ∀ f, encode f ≠ [])
    {more : List (List β)} {new : List φ} (hmore : more.flatten = stream encode new) :
    Carries encode left (pieces ++ more) (frames ++ new) := by
  obtain ⟨hbytes, hpart⟩ := h
  refine ⟨?_, ?_⟩
  · rw [List.flatten_append, ← List.append_assoc, hbytes, hmore, stream_append]
  · cases frames with
    | cons f frames => exact hpart
    | nil =>
      rw [show left = [] from hpart]
      cases new with
      | nil => rfl
      | cons f new => exact List.length_pos_of_ne_nil (hne f)

/-- Taking a piece out takes the frames off the way that it completes. -/
theorem Carries.take (h : Carries encode left (piece :: pieces) frames) :
    ∃ done rest left', frames = done ++ rest ∧ left ++ piece = stream encode done ++ left' ∧
      Carries encode left' pieces rest := by
  obtain ⟨hbytes, -⟩ := h
  rw [List.flatten_cons, ← List.append_assoc] at hbytes
  obtain ⟨done, rest, left', hframes, hpiece, hrest, hpart⟩ := split_prefix hbytes
  exact ⟨done, rest, left', hframes, hpiece, hrest, hpart⟩

end Jukeboy.Base.Channel
