import Mathlib.Data.List.TakeWhile
import Mathlib.Tactic.Common

/-! # Words between separators

The words of a list, and a splitter that stops looking for separators at its last word:
it finds the first words as long as nothing follows the last of them. -/
namespace Jukeboy.Base.Words

variable {α : Type} {sep : α → Bool}

/-- The longest runs without a separator. -/
def words (sep : α → Bool) (l : List α) : List (List α) :=
  (l.splitOnP sep).filter fun w => !w.isEmpty

/-- At most `k` words; the last of so many is all of the rest. -/
def splitRest (sep : α → Bool) : Nat → List α → List (List α)
  | 0, _ => []
  | k + 1, l =>
    let rest := l.dropWhile sep
    if rest.isEmpty then []
    else if k = 0 then [rest]
    else rest.takeWhile (fun a => !sep a) ::
      splitRest sep k (rest.dropWhile fun a => !sep a)

variable {a : α} {l w : List α} {k : Nat}

theorem words_cons_sep (h : sep a = true) (l : List α) : words sep (a :: l) = words sep l := by
  rw [words, List.splitOnP_cons_eq_if_modifyHead, if_pos h]
  rfl

theorem words_dropWhile (l : List α) : words sep (l.dropWhile sep) = words sep l := by
  induction l with
  | nil => rfl
  | cons a l ih =>
    cases h : sep a with
    | true => rw [List.dropWhile_cons_of_pos h, ih, words_cons_sep h]
    | false => rw [List.dropWhile_cons_of_neg (by simp [h])]

/-- A word, then what is behind it. -/
theorem words_append (hne : w ≠ []) (hw : ∀ x ∈ w, sep x = false)
    (hl : ∀ x ∈ l.head?, sep x = true) : words sep (w ++ l) = w :: words sep l := by
  have hkept (ws : List (List α)) :
      (w :: ws).filter (fun w => !w.isEmpty) = w :: ws.filter fun w => !w.isEmpty := by
    simp [hne]
  cases l with
  | nil =>
    rw [List.append_nil, words, List.splitOnP_eq_singleton hw, hkept]
    rfl
  | cons a l =>
    have ha : sep a = true := hl a rfl
    rw [words_cons_sep ha, words, List.splitOnP_append_cons_of_forall_mem hw a ha, hkept]
    rfl

theorem drop_length_takeWhile (p : α → Bool) (l : List α) :
    l.drop (l.takeWhile p).length = l.dropWhile p := by
  have h : (l.takeWhile p ++ l.dropWhile p).drop (l.takeWhile p).length = l.dropWhile p :=
    List.drop_left
  rwa [List.takeWhile_append_dropWhile] at h

theorem head_dropWhile (p : α → Bool) (l : List α) :
    ∀ x ∈ (l.dropWhile p).head?, p x = false := by
  intro x hx
  cases hl : l.dropWhile p with
  | nil =>
    rw [hl] at hx
    cases hx
  | cons y rest =>
    rw [hl] at hx
    cases hx
    have hne : l.dropWhile p ≠ [] := by rw [hl]; exact List.cons_ne_nil _ _
    have hhead := List.head_dropWhile_not p hne
    simpa only [hl, List.head_cons] using hhead

/-- The first word of a list that starts with one. -/
theorem takeWhile_word (hhead : ∀ x ∈ l.head?, sep x = false) (hne : l ≠ []) :
    l.takeWhile (fun a => !sep a) ≠ [] ∧ ∀ x ∈ l.takeWhile (fun a => !sep a), sep x = false := by
  constructor
  · cases l with
    | nil => exact absurd rfl hne
    | cons x l =>
      have hx : sep x = false := hhead x rfl
      simp [hx]
  · intro x hx
    simpa using List.mem_takeWhile_imp hx

theorem words_eq_cons (hhead : ∀ x ∈ l.head?, sep x = false) (hne : l ≠ []) :
    words sep l = l.takeWhile (fun a => !sep a) :: words sep (l.dropWhile fun a => !sep a) := by
  obtain ⟨hword, hfree⟩ := takeWhile_word hhead hne
  have hrest : ∀ x ∈ (l.dropWhile fun a => !sep a).head?, sep x = true := by
    intro x hx
    simpa using head_dropWhile (fun a => !sep a) l x hx
  have h := words_append hword hfree hrest
  rwa [List.takeWhile_append_dropWhile] at h

/-- Without words all are separators. -/
theorem eq_true_of_words_nil (h : words sep l = []) : ∀ x ∈ l, sep x = true := by
  induction l with
  | nil =>
    intro _ h
    cases h
  | cons a l ih =>
    cases ha : sep a with
    | true =>
      rw [words_cons_sep ha] at h
      exact List.forall_mem_cons.mpr ⟨ha, ih h⟩
    | false =>
      rw [words_eq_cons (by simp [ha]) (List.cons_ne_nil _ _)] at h
      cases h

/-- Nothing follows the `k`-th word. -/
def Fits (sep : α → Bool) (k : Nat) (l : List α) : Prop :=
  (words sep l).length < k ∨ (words sep l).length = k ∧ ∀ x ∈ l.getLast?, sep x = false

instance : Decidable (Fits sep k l) :=
  inferInstanceAs (Decidable (_ ∨ _ ∧ ∀ x ∈ l.getLast?, _))

theorem getLast?_dropWhile {p : α → Bool} (hne : l.dropWhile p ≠ []) :
    (l.dropWhile p).getLast? = l.getLast? := by
  conv_rhs => rw [← List.takeWhile_append_dropWhile (p := p) (l := l)]
  rw [List.getLast?_append]
  cases hlast : (l.dropWhile p).getLast? with
  | none => exact absurd (List.getLast?_eq_none_iff.mp hlast) hne
  | some x => rfl

/-- Separators before the first word do not matter. -/
theorem fits_dropWhile (hne : l.dropWhile sep ≠ []) :
    Fits sep k (l.dropWhile sep) ↔ Fits sep k l := by
  rw [Fits, Fits, words_dropWhile, getLast?_dropWhile hne]

/-- Nothing follows the last word of all. -/
theorem last_of_dropWhile_nil (h : (l.dropWhile fun a => !sep a) = []) :
    ∀ x ∈ l.getLast?, sep x = false := by
  intro x hx
  have hall := List.dropWhile_eq_nil_iff.mp h x (List.mem_of_getLast? hx)
  simpa using hall

/-- What is behind the first word, when it is no word. -/
theorem last_of_words_nil (hne : (l.dropWhile fun a => !sep a) ≠ [])
    (hnil : words sep (l.dropWhile fun a => !sep a) = []) :
    ¬ ∀ x ∈ l.getLast?, sep x = false := by
  intro h
  rw [← getLast?_dropWhile hne] at h
  have hlast := List.getLast?_eq_some_getLast hne
  have hfalse := h _ hlast
  rw [eq_true_of_words_nil hnil _ (List.getLast_mem hne)] at hfalse
  cases hfalse

/-- The only word is all of the rest. -/
theorem fits_one_iff (hhead : ∀ x ∈ l.head?, sep x = false) (hne : l ≠ []) :
    l = l.takeWhile (fun a => !sep a) ↔ Fits sep 1 l := by
  rw [Fits, words_eq_cons hhead hne, List.length_cons]
  by_cases htail : (l.dropWhile fun a => !sep a) = []
  · refine iff_of_true ?_ (.inr ⟨by rw [htail]; rfl, last_of_dropWhile_nil htail⟩)
    conv_lhs => rw [← List.takeWhile_append_dropWhile (p := fun a => !sep a) (l := l)]
    rw [htail, List.append_nil]
  · refine iff_of_false ?_ ?_
    · intro h
      refine htail (List.dropWhile_eq_nil_iff.mpr ?_)
      intro x hx
      rw [h] at hx
      have hword := List.mem_takeWhile_imp hx
      exact hword
    · rintro (hlt | ⟨hlen, hlast⟩)
      · omega
      · exact last_of_words_nil htail (List.length_eq_zero_iff.mp (by omega)) hlast

/-- Behind the first word there is one place less. -/
theorem fits_succ_iff (hhead : ∀ x ∈ l.head?, sep x = false) (hne : l ≠ []) (hk : 0 < k) :
    Fits sep k (l.dropWhile fun a => !sep a) ↔ Fits sep (k + 1) l := by
  rw [Fits, Fits, words_eq_cons hhead hne, List.length_cons]
  by_cases htail : (l.dropWhile fun a => !sep a) = []
  · rw [htail]
    exact iff_of_true (.inl hk) (.inl (Nat.succ_lt_succ hk))
  · rw [getLast?_dropWhile htail, Nat.add_lt_add_iff_right, Nat.add_right_cancel_iff]

/-- **The splitter** finds the first `k` words exactly when nothing follows the `k`-th. -/
theorem splitRest_eq_iff (hk : 0 < k) :
    splitRest sep k l = (words sep l).take k ↔ Fits sep k l := by
  induction k generalizing l with
  | zero => cases hk
  | succ k ih =>
    rw [splitRest, ← words_dropWhile l]
    by_cases hnil : l.dropWhile sep = []
    · rw [hnil]
      refine iff_of_true rfl (.inl ?_)
      rw [← words_dropWhile, hnil]
      exact Nat.succ_pos k
    · rw [← fits_dropWhile hnil]
      have hhead := head_dropWhile sep l
      generalize l.dropWhile sep = rest at hnil hhead
      have hempty : ¬ rest.isEmpty = true := by rwa [List.isEmpty_iff]
      rw [if_neg hempty, words_eq_cons hhead hnil, List.take_succ_cons]
      cases k with
      | zero =>
        rw [if_pos rfl, ← fits_one_iff hhead hnil, List.take_zero, List.cons_eq_cons,
          and_iff_left rfl]
      | succ k =>
        rw [if_neg k.succ_ne_zero, List.cons_inj_right, ih k.succ_pos,
          fits_succ_iff hhead hnil k.succ_pos]

/-- The splitter at a word, with the separators before it and what is behind it. -/
theorem splitRest_word {skipped word tail : List α} (hskipped : ∀ a ∈ skipped, sep a = true)
    (hne : word ≠ []) (hword : ∀ a ∈ word, sep a = false) (htail : ∀ a ∈ tail.head?, sep a = true)
    (k : Nat) : splitRest sep (k + 1) (skipped ++ (word ++ tail)) =
      if k = 0 then [word ++ tail] else word :: splitRest sep k tail := by
  have hdrop : (skipped ++ (word ++ tail)).dropWhile sep = word ++ tail := by
    rw [List.dropWhile_append_of_pos hskipped]
    cases word with
    | nil => exact absurd rfl hne
    | cons a word =>
      have ha : sep a = false := hword a List.mem_cons_self
      rw [List.cons_append, List.dropWhile_cons, ha]
      rfl
  have hfree : ∀ a ∈ word, (!sep a) = true := fun a ha => by rw [hword a ha]; rfl
  have hstop : tail.takeWhile (fun a => !sep a) = [] ∧ tail.dropWhile (fun a => !sep a) = tail := by
    cases tail with
    | nil => exact ⟨rfl, rfl⟩
    | cons a tail =>
      have ha : sep a = true := htail a rfl
      simp [ha]
  have hempty : ¬ (word ++ tail).isEmpty = true := by simp [hne]
  rw [splitRest, hdrop, if_neg hempty, List.takeWhile_append_of_pos hfree,
    List.dropWhile_append_of_pos hfree, hstop.1, hstop.2, List.append_nil]

/-- What is found are parts of the list, and not too many of them. -/
theorem length_splitRest_le (k : Nat) (l : List α) : (splitRest sep k l).length ≤ k := by
  induction k generalizing l with
  | zero => exact Nat.le_refl _
  | succ k ih =>
    rw [splitRest]
    split
    · exact Nat.zero_le _
    · split
      · exact Nat.succ_le_succ (Nat.zero_le k)
      · exact Nat.succ_le_succ (ih _)

theorem sublist_of_mem_splitRest (h : w ∈ splitRest sep k l) : w.Sublist l := by
  induction k generalizing l with
  | zero => cases h
  | succ k ih =>
    have hrest : (l.dropWhile sep).Sublist l := List.dropWhile_sublist sep
    rw [splitRest] at h
    split at h
    · cases h
    · split at h
      · rw [List.mem_singleton] at h
        exact h ▸ hrest
      · obtain rfl | h := List.mem_cons.mp h
        · exact (List.takeWhile_sublist _).trans hrest
        · exact (ih h).trans ((List.dropWhile_sublist _).trans hrest)

end Jukeboy.Base.Words
