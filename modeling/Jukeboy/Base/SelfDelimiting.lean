import Mathlib.Data.List.Basic
import Mathlib.Tactic.Common

/-! # Words one behind the other

The words of a self-delimiting code say where they end. Taking one word after the
other off a string finds the longest run of words that it begins with, and every run
of words that it begins with is the beginning of that one. -/
namespace Jukeboy.Base.SelfDelimiting

variable {α β : Type}

/-- A code with a reader that takes one word off a string. -/
structure Code (α β : Type) where
  encode : α → List β
  split : List β → Option (α × List β)
  encode_ne_nil : ∀ a, encode a ≠ []
  split_iff : ∀ {bytes a rest}, split bytes = some (a, rest) ↔ bytes = encode a ++ rest

namespace Code

variable (c : Code α β)

def stream (ws : List α) : List β := ws.flatMap c.encode

@[simp] theorem stream_nil : c.stream [] = [] := rfl

@[simp] theorem stream_cons (a : α) (ws : List α) :
    c.stream (a :: ws) = c.encode a ++ c.stream ws := List.flatMap_cons

theorem stream_append (ws more : List α) : c.stream (ws ++ more) = c.stream ws ++ c.stream more :=
  List.flatMap_append

theorem split_lt {bytes rest : List β} {a : α} (h : c.split bytes = some (a, rest)) :
    rest.length < bytes.length := by
  have hpos := List.length_pos_iff_ne_nil.mpr (c.encode_ne_nil a)
  rw [c.split_iff.mp h, List.length_append]
  omega

/-- The words at the beginning of a string, as long as there is one. -/
def words (bytes : List β) : List α :=
  match _h : c.split bytes with
  | none => []
  | some (a, rest) => a :: words rest
termination_by bytes.length
decreasing_by exact c.split_lt ‹_›

theorem words_none {bytes : List β} (h : c.split bytes = none) : c.words bytes = [] := by
  rw [words]
  split
  · rfl
  · next hsome => cases h.symm.trans hsome

@[simp] theorem words_encode (a : α) (rest : List β) :
    c.words (c.encode a ++ rest) = a :: c.words rest := by
  have h : c.split (c.encode a ++ rest) = some (a, rest) := c.split_iff.mpr rfl
  rw [words]
  split
  · next hnone => cases hnone.symm.trans h
  · next hsome =>
    cases hsome.symm.trans h
    rfl

theorem words_nil : c.words [] = [] := by
  refine c.words_none ?_
  cases h : c.split [] with
  | none => rfl
  | some found =>
    have hnil := c.split_iff.mp (show c.split [] = some (found.1, found.2) from h)
    exact absurd (List.append_eq_nil_iff.mp hnil.symm).1 (c.encode_ne_nil found.1)

/-- The words of a stream, then those behind it. -/
theorem words_stream_append (ws : List α) (rest : List β) :
    c.words (c.stream ws ++ rest) = ws ++ c.words rest := by
  induction ws with
  | nil => rfl
  | cons a ws ih => rw [stream_cons, List.append_assoc, words_encode, ih, List.cons_append]

/-- **Round trip**: the words of a stream are the words that were written. -/
@[simp] theorem words_stream (ws : List α) : c.words (c.stream ws) = ws := by
  have h := c.words_stream_append ws []
  rwa [c.words_nil, List.append_nil, List.append_nil] at h

theorem stream_words_prefix (bytes : List β) : c.stream (c.words bytes) <+: bytes := by
  cases h : c.split bytes with
  | none =>
    rw [c.words_none h]
    exact List.nil_prefix
  | some found =>
    obtain ⟨a, rest⟩ := found
    have hlt := c.split_lt h
    obtain rfl := c.split_iff.mp h
    rw [words_encode, stream_cons, List.prefix_append_right_inj]
    exact stream_words_prefix rest
termination_by bytes.length

theorem prefix_words {ws : List α} {bytes : List β} (h : c.stream ws <+: bytes) :
    ws <+: c.words bytes := by
  induction ws generalizing bytes with
  | nil => exact List.nil_prefix
  | cons a ws ih =>
    obtain ⟨rest, rfl⟩ := h
    rw [stream_cons, List.append_assoc, words_encode, List.prefix_cons_inj]
    exact ih (List.prefix_append ..)

/-- The run of words makes up as much of the string as any run of words it begins with. -/
def Longest (bytes : List β) (ws : List α) : Prop :=
  c.stream ws <+: bytes ∧
    ∀ other, c.stream other <+: bytes → (c.stream other).length ≤ (c.stream ws).length

/-- **The longest run of words** is the one taken word by word, and no other. -/
theorem longest_iff {bytes : List β} {ws : List α} : c.Longest bytes ws ↔ ws = c.words bytes := by
  constructor
  · rintro ⟨hstarts, hlongest⟩
    obtain ⟨more, hmore⟩ := c.prefix_words hstarts
    have hle := hlongest _ (c.stream_words_prefix bytes)
    cases more with
    | nil => rw [← hmore, List.append_nil]
    | cons a more =>
      have hpos := List.length_pos_iff_ne_nil.mpr (c.encode_ne_nil a)
      rw [← hmore] at hle
      simp only [stream, List.flatMap_append, List.flatMap_cons, List.length_append] at hle
      omega
  · rintro rfl
    refine ⟨c.stream_words_prefix bytes, fun other hother => ?_⟩
    obtain ⟨more, hmore⟩ := c.prefix_words hother
    rw [← hmore, stream, stream, List.flatMap_append, List.length_append]
    exact Nat.le_add_right ..

end Code

end Jukeboy.Base.SelfDelimiting
