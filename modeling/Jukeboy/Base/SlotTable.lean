import Mathlib.Data.Fintype.Card
import Mathlib.Data.Fintype.Fin
import Mathlib.Data.List.FinRange
import Mathlib.Tactic.Common

/-! # Tables of a fixed number of slots

A slot is free or holds a record; searches go through the slots in order. The
lemmas say what a table holds after an operation, how many slots it uses, and
when its records keep different keys. -/
namespace Jukeboy.Base.SlotTable

variable {n : Nat} {α κ : Type}

abbrev Table (n : Nat) (α : Type) := Fin n → Option α

def empty : Table n α := fun _ => none

/-- The first slot in use whose record meets `p`. -/
def find (t : Table n α) (p : α → Bool) : Option (Fin n) :=
  (List.finRange n).find? fun i => (t i).any p

/-- The first free slot. -/
def free (t : Table n α) : Option (Fin n) := (List.finRange n).find? fun i => (t i).isNone

def set (t : Table n α) (i : Fin n) (a : α) : Table n α := Function.update t i (some a)

def clear (t : Table n α) (i : Fin n) : Table n α := Function.update t i none

/-- The table without the records that meet `p`. -/
def erase (t : Table n α) (p : α → Bool) : Table n α := fun i => (t i).filter fun a => !p a

/-- The records in slot order. -/
def records (t : Table n α) : List α := (List.finRange n).filterMap t

/-- The slots filled from the first on. -/
def ofList (records : List α) : Table n α := fun i => records[i.val]?

/-- The slots in use. -/
def used (t : Table n α) : Finset (Fin n) := Finset.univ.filter fun i => (t i).isSome = true

/-- The number of slots in use. -/
def inUse (t : Table n α) : Nat := (used t).card

def Holds (t : Table n α) (a : α) : Prop := ∃ i, t i = some a

/-! ## Searches -/

theorem find_some {t : Table n α} {p : α → Bool} {i : Fin n} (h : find t p = some i) :
    ∃ a, t i = some a ∧ p a = true := by
  have hany : (t i).any p = true := @List.find?_some _ (fun i => (t i).any p) _ _ h
  cases hi : t i with
  | none => rw [hi] at hany; cases hany
  | some a => exact ⟨a, rfl, by rwa [hi] at hany⟩

theorem find_eq_none {t : Table n α} {p : α → Bool} :
    find t p = none ↔ ∀ a, Holds t a → p a = false := by
  simp only [find, List.find?_eq_none, List.mem_finRange, true_implies, Bool.not_eq_true,
    Option.any_eq_false]
  constructor
  · rintro h a ⟨i, hi⟩
    exact h i a hi
  · intro h i a hi
    exact h a ⟨i, hi⟩

theorem free_some {t : Table n α} {i : Fin n} (h : free t = some i) : t i = none :=
  Option.isNone_iff_eq_none.mp (@List.find?_some _ (fun i => (t i).isNone) _ _ h)

theorem mem_used {t : Table n α} {i : Fin n} : i ∈ used t ↔ (t i).isSome = true :=
  Finset.mem_filter_univ i

theorem inUse_le (t : Table n α) : inUse t ≤ n := by
  have h := Finset.card_le_univ (used t)
  rwa [Fintype.card_fin] at h

theorem free_isSome {t : Table n α} (h : inUse t < n) : ∃ i, free t = some i := by
  cases hf : free t with
  | some i => exact ⟨i, rfl⟩
  | none =>
    have hall : ∀ i, (t i).isSome = true := by
      intro i
      have hi := List.find?_eq_none.mp hf i (List.mem_finRange i)
      rwa [Bool.not_eq_true, Option.isNone_eq_false_iff] at hi
    rw [inUse, used, Finset.filter_true_of_mem fun i _ => hall i, Finset.card_univ,
      Fintype.card_fin] at h
    exact absurd h (Nat.lt_irrefl n)

/-! ## What a table holds -/

theorem not_holds_empty (a : α) : ¬ Holds (empty : Table n α) a := by
  rintro ⟨i, hi⟩
  cases hi

theorem holds_set_self (t : Table n α) (i : Fin n) (a : α) : Holds (set t i a) a :=
  ⟨i, Function.update_self ..⟩

/-- A record of a table with slot `i` set is the new one or sits elsewhere. -/
theorem holds_set {t : Table n α} {i : Fin n} {a b : α} :
    Holds (set t i a) b ↔ b = a ∨ ∃ j, j ≠ i ∧ t j = some b := by
  constructor
  · rintro ⟨j, hj⟩
    by_cases hij : j = i
    · subst hij
      rw [set, Function.update_self] at hj
      exact .inl (Option.some.inj hj).symm
    · rw [set, Function.update_of_ne hij] at hj
      exact .inr ⟨j, hij, hj⟩
  · rintro (rfl | ⟨j, hij, hj⟩)
    · exact holds_set_self t i b
    · exact ⟨j, by rw [set, Function.update_of_ne hij]; exact hj⟩

theorem holds_set_free {t : Table n α} {i : Fin n} {a b : α} (hi : t i = none) :
    Holds (set t i a) b ↔ b = a ∨ Holds t b := by
  rw [holds_set]
  refine or_congr_right ⟨fun ⟨j, _, hj⟩ => ⟨j, hj⟩, fun ⟨j, hj⟩ => ⟨j, ?_, hj⟩⟩
  rintro rfl
  rw [hi] at hj
  cases hj

theorem holds_erase {t : Table n α} {p : α → Bool} {a : α} :
    Holds (erase t p) a ↔ Holds t a ∧ p a = false := by
  constructor
  · rintro ⟨i, hi⟩
    obtain ⟨hi, hp⟩ := Option.filter_eq_some_iff.mp hi
    exact ⟨⟨i, hi⟩, by simpa using hp⟩
  · rintro ⟨⟨i, hi⟩, hp⟩
    exact ⟨i, Option.filter_eq_some_iff.mpr ⟨hi, by simp [hp]⟩⟩

theorem mem_records {t : Table n α} {a : α} : a ∈ records t ↔ Holds t a := by
  simp [records, Holds]

theorem holds_ofList {l : List α} (h : l.length ≤ n) {a : α} :
    Holds (ofList l : Table n α) a ↔ a ∈ l := by
  rw [List.mem_iff_getElem?]
  constructor
  · rintro ⟨i, hi⟩
    exact ⟨i, hi⟩
  · rintro ⟨i, hi⟩
    have hlt : i < l.length := (List.getElem?_eq_some_iff.mp hi).1
    exact ⟨⟨i, hlt.trans_le h⟩, hi⟩

/-! ## How many slots are in use -/

theorem inUse_empty : inUse (empty : Table n α) = 0 := by
  simp [inUse, used, empty]

theorem inUse_set_free {t : Table n α} {i : Fin n} (hi : t i = none) (a : α) :
    inUse (set t i a) = inUse t + 1 := by
  have hnot : i ∉ used t := by simp [mem_used, hi]
  rw [inUse, inUse, ← Finset.card_insert_of_notMem hnot]
  congr 1
  ext j
  by_cases hij : j = i
  · subst hij
    simp [mem_used, set]
  · simp [mem_used, set, hij]

theorem inUse_set_used {t : Table n α} {i : Fin n} {b : α} (hi : t i = some b) (a : α) :
    inUse (set t i a) = inUse t := by
  rw [inUse, inUse]
  congr 1
  ext j
  by_cases hij : j = i
  · subst hij
    simp [mem_used, set, hi]
  · simp [mem_used, set, hij]

theorem inUse_clear {t : Table n α} {i : Fin n} {b : α} (hi : t i = some b) :
    inUse (clear t i) + 1 = inUse t := by
  have hset : set (clear t i) i b = t := by
    funext j
    by_cases hij : j = i
    · subst hij
      rw [set, Function.update_self, hi]
    · rw [set, clear, Function.update_of_ne hij, Function.update_of_ne hij]
  have hfree : clear t i i = none := Function.update_self ..
  rw [← inUse_set_free hfree b, hset]

/-- What takes out more leaves fewer slots in use. -/
theorem inUse_erase_le {t : Table n α} {p q : α → Bool}
    (h : ∀ a, Holds t a → q a = true → p a = true) : inUse (erase t p) ≤ inUse (erase t q) := by
  refine Finset.card_le_card fun i hi => ?_
  obtain ⟨a, ha⟩ := Option.isSome_iff_exists.mp (mem_used.mp hi)
  obtain ⟨hi, hp⟩ := Option.filter_eq_some_iff.mp ha
  refine mem_used.mpr (Option.isSome_iff_exists.mpr ⟨a, Option.filter_eq_some_iff.mpr ⟨hi, ?_⟩⟩)
  rw [Bool.not_eq_true'] at hp ⊢
  exact Bool.eq_false_iff.mpr fun hq => absurd (h a ⟨i, hi⟩ hq) (Bool.eq_false_iff.mp hp)

theorem inUse_ofList {l : List α} (h : l.length ≤ n) : inUse (ofList l : Table n α) = l.length := by
  have hused : used (ofList l : Table n α) = Finset.univ.filter fun i => i.val < l.length := by
    ext i
    simp [mem_used, ofList]
  rw [inUse, hused, Fin.card_filter_val_lt, Nat.min_eq_right h]

theorem length_records (t : Table n α) : (records t).length = inUse t := by
  rw [records, List.length_filterMap_eq_countP, inUse, used, ← List.toFinset_finRange,
    ← List.toFinset_filter, List.toFinset_card_of_nodup ((List.nodup_finRange n).filter _),
    List.countP_eq_length_filter]

/-! ## Clearing in a loop -/

/-- The loop that clears the slots whose record meets `p` and counts down. -/
def clearLoop (p : α → Bool) : List (Fin n) → Table n α → Nat → Table n α × Nat
  | [], t, count => (t, count)
  | i :: is, t, count =>
    if (t i).any p then clearLoop p is (clear t i) (count - 1) else clearLoop p is t count

theorem clearLoop_spec (p : α → Bool) (is : List (Fin n)) (t : Table n α) :
    (∀ j, (clearLoop p is t (inUse t)).1 j = if j ∈ is then (t j).filter (!p ·) else t j) ∧
      (clearLoop p is t (inUse t)).2 = inUse (clearLoop p is t (inUse t)).1 := by
  induction is generalizing t with
  | nil => simp [clearLoop]
  | cons i is ih =>
    unfold clearLoop
    split
    · next hany =>
      obtain ⟨a, hi, hp⟩ : ∃ a, t i = some a ∧ p a = true := by
        cases hi : t i with
        | none => rw [hi] at hany; cases hany
        | some a => exact ⟨a, rfl, by rwa [hi] at hany⟩
      have hcount : inUse t - 1 = inUse (clear t i) := by
        rw [← inUse_clear hi, Nat.add_sub_cancel]
      rw [hcount]
      obtain ⟨hslots, hsum⟩ := ih (clear t i)
      refine ⟨fun j => ?_, hsum⟩
      rw [hslots j]
      by_cases hij : j = i
      · subst hij
        simp [clear, hi, Option.filter, hp]
      · simp [clear, hij]
    · next hany =>
      obtain ⟨hslots, hsum⟩ := ih t
      refine ⟨fun j => ?_, hsum⟩
      rw [hslots j]
      by_cases hij : j = i
      · subst hij
        cases hj : t j with
        | none => simp
        | some a =>
          have hp : p a = false := by simpa [hj] using hany
          simp [Option.filter, hp]
      · simp [hij]

theorem clearLoop_finRange (p : α → Bool) (t : Table n α) :
    clearLoop p (List.finRange n) t (inUse t) = (erase t p, inUse (erase t p)) := by
  obtain ⟨hslots, hsum⟩ := clearLoop_spec p (List.finRange n) t
  have hfst : (clearLoop p (List.finRange n) t (inUse t)).1 = erase t p := by
    funext j
    rw [hslots j, if_pos (List.mem_finRange j), erase]
  exact Prod.ext hfst (by rw [hsum, hfst])

/-! ## The least record -/

/-- One slot of the search for the least record: it wins when it meets `p` and
ranks below the best so far. -/
def leastStep (t : Table n α) (p : α → Bool) (rank : α → Nat) (best : Option (Fin n) × Nat)
    (i : Fin n) : Option (Fin n) × Nat :=
  match t i with
  | none => best
  | some a => if p a && rank a < best.2 then (some i, rank a) else best

/-- The first slot whose record ranks least among those that meet `p` and rank below `bound`. -/
def least (t : Table n α) (p : α → Bool) (rank : α → Nat) (bound : Nat) : Option (Fin n) :=
  ((List.finRange n).foldl (leastStep t p rank) (none, bound)).1

theorem leastFold_spec (t : Table n α) (p : α → Bool) (rank : α → Nat) (is : List (Fin n))
    (best : Option (Fin n) × Nat) :
    let best' := is.foldl (leastStep t p rank) best
    (best' = best ∨ ∃ i a, t i = some a ∧ p a = true ∧ best' = (some i, rank a) ∧
        rank a < best.2) ∧
      best'.2 ≤ best.2 ∧ ∀ i ∈ is, ∀ a, t i = some a → p a = true → best'.2 ≤ rank a := by
  induction is generalizing best with
  | nil => exact ⟨.inl rfl, Nat.le_refl _, fun i hi => absurd hi (List.not_mem_nil)⟩
  | cons i is ih =>
    obtain ⟨hsome, hle, hall⟩ := ih (leastStep t p rank best i)
    have hstep : (leastStep t p rank best i = best ∧
          ∀ a, t i = some a → p a = true → best.2 ≤ rank a) ∨
        ∃ a, t i = some a ∧ p a = true ∧ rank a < best.2 ∧
          leastStep t p rank best i = (some i, rank a) := by
      cases hi : t i with
      | none => exact .inl ⟨by rw [leastStep, hi], by rintro a ⟨⟩⟩
      | some a =>
        by_cases hp : p a = true ∧ rank a < best.2
        · exact .inr ⟨a, rfl, hp.1, hp.2, by simp [leastStep, hi, hp.1, hp.2]⟩
        · refine .inl ⟨by simpa [leastStep, hi] using fun h1 h2 => absurd ⟨h1, h2⟩ hp, ?_⟩
          rintro b hb hpb
          obtain rfl := Option.some.inj hb
          exact Nat.not_lt.mp fun hlt => hp ⟨hpb, hlt⟩
    rw [List.foldl_cons]
    rcases hstep with ⟨hsame, hge⟩ | ⟨a, hi, hp, hlt, hwin⟩
    · rw [hsame] at hsome hle hall ⊢
      refine ⟨hsome, hle, fun j hj a ha hpa => ?_⟩
      rcases List.mem_cons.mp hj with rfl | hj
      · exact hle.trans (hge a ha hpa)
      · exact hall j hj a ha hpa
    · rw [hwin] at hsome hle hall ⊢
      refine ⟨.inr ?_, hle.trans hlt.le, fun j hj b hb hpb => ?_⟩
      · rcases hsome with hsame | ⟨j, b, hj, hpb, heq, hltb⟩
        · exact ⟨i, a, hi, hp, hsame, hlt⟩
        · exact ⟨j, b, hj, hpb, heq, hltb.trans hlt⟩
      · rcases List.mem_cons.mp hj with rfl | hj
        · rw [hi] at hb
          exact Option.some.inj hb ▸ hle
        · exact hall j hj b hb hpb

/-- The slot found holds a record that meets `p` and ranks least among those that do. -/
theorem least_some {t : Table n α} {p : α → Bool} {rank : α → Nat} {bound : Nat} {i : Fin n}
    (h : least t p rank bound = some i) :
    ∃ a, t i = some a ∧ p a = true ∧ ∀ b, Holds t b → p b = true → rank a ≤ rank b := by
  obtain ⟨hsome, -, hall⟩ := leastFold_spec t p rank (List.finRange n) (none, bound)
  rcases hsome with hsame | ⟨j, a, hj, hp, heq, -⟩
  · rw [least, hsame] at h
    cases h
  · rw [least, heq] at h
    obtain rfl := Option.some.inj h
    rw [heq] at hall
    exact ⟨a, hj, hp, fun b ⟨k, hk⟩ hpb => hall k (List.mem_finRange k) b hk hpb⟩

/-- The record found ranks below the bound. -/
theorem least_lt {t : Table n α} {p : α → Bool} {rank : α → Nat} {bound : Nat} {i : Fin n}
    (h : least t p rank bound = some i) : ∃ a, t i = some a ∧ rank a < bound := by
  obtain ⟨hsome, -, -⟩ := leastFold_spec t p rank (List.finRange n) (none, bound)
  rcases hsome with hsame | ⟨j, a, hj, -, heq, hlt⟩
  · rw [least, hsame] at h
    cases h
  · rw [least, heq] at h
    obtain rfl := Option.some.inj h
    exact ⟨a, hj, hlt⟩

/-- A search that finds nothing leaves no record that meets `p` and ranks below the bound. -/
theorem least_isSome {t : Table n α} {p : α → Bool} {rank : α → Nat} {bound : Nat} {a : α}
    (ha : Holds t a) (hp : p a = true) (hlt : rank a < bound) :
    ∃ i, least t p rank bound = some i := by
  obtain ⟨hsome, -, hall⟩ := leastFold_spec t p rank (List.finRange n) (none, bound)
  rcases hsome with hsame | ⟨j, b, -, -, heq, -⟩
  · obtain ⟨i, hi⟩ := ha
    have hle := hall i (List.mem_finRange i) a hi hp
    rw [hsame] at hle
    exact absurd hle (Nat.not_le.mpr hlt)
  · exact ⟨j, by rw [least, heq]⟩

/-! ## Keys -/

/-- No two slots hold records with the same key. -/
def Keyed (key : α → κ) (t : Table n α) : Prop :=
  ∀ i j a b, t i = some a → t j = some b → key a = key b → i = j

theorem keyed_empty (key : α → κ) : Keyed key (empty : Table n α) := by
  intro i j a b hi
  cases hi

theorem Keyed.eq_of_holds {key : α → κ} {t : Table n α} (h : Keyed key t) {a b : α}
    (ha : Holds t a) (hb : Holds t b) (hab : key a = key b) : a = b := by
  obtain ⟨i, hi⟩ := ha
  obtain ⟨j, hj⟩ := hb
  obtain rfl := h i j a b hi hj hab
  rw [hi] at hj
  exact Option.some.inj hj

theorem Keyed.erase {key : α → κ} {t : Table n α} (h : Keyed key t) (p : α → Bool) :
    Keyed key (erase t p) := by
  intro i j a b hi hj hab
  exact h i j a b (Option.filter_eq_some_iff.mp hi).1 (Option.filter_eq_some_iff.mp hj).1 hab

theorem Keyed.set {key : α → κ} {t : Table n α} (h : Keyed key t) {i : Fin n} {a : α}
    (hfresh : ∀ j b, j ≠ i → t j = some b → key b ≠ key a) : Keyed key (set t i a) := by
  intro j k b c hj hk hbc
  by_cases hji : j = i
  · by_cases hki : k = i
    · rw [hji, hki]
    · subst hji
      rw [SlotTable.set, Function.update_self] at hj
      rw [SlotTable.set, Function.update_of_ne hki] at hk
      obtain rfl := Option.some.inj hj
      exact absurd hbc.symm (hfresh k c hki hk)
  · rw [SlotTable.set, Function.update_of_ne hji] at hj
    by_cases hki : k = i
    · subst hki
      rw [SlotTable.set, Function.update_self] at hk
      obtain rfl := Option.some.inj hk
      exact absurd hbc (hfresh j b hji hj)
    · rw [SlotTable.set, Function.update_of_ne hki] at hk
      exact h j k b c hj hk hbc

/-- A record replaced by one with the same key. -/
theorem Keyed.set_used {key : α → κ} {t : Table n α} (h : Keyed key t) {i : Fin n} {a b : α}
    (hi : t i = some b) (hab : key a = key b) : Keyed key (SlotTable.set t i a) :=
  h.set fun j c hj hc heq => hj (h j i c b hc hi (heq.trans hab))

/-- What a table with a replaced record holds. -/
theorem Keyed.holds_set_used {key : α → κ} {t : Table n α} (h : Keyed key t) {i : Fin n}
    {a b c : α} (hi : t i = some b) :
    Holds (SlotTable.set t i a) c ↔ c = a ∨ Holds t c ∧ key c ≠ key b := by
  rw [holds_set]
  refine or_congr_right ⟨?_, ?_⟩
  · rintro ⟨j, hj, hc⟩
    exact ⟨⟨j, hc⟩, fun heq => hj (h j i c b hc hi heq)⟩
  · rintro ⟨⟨j, hc⟩, hne⟩
    refine ⟨j, ?_, hc⟩
    rintro rfl
    rw [hi] at hc
    exact hne (congrArg key (Option.some.inj hc).symm)

/-- Clearing a slot in use takes out the records with its key. -/
theorem Keyed.clear_eq_erase [DecidableEq κ] {key : α → κ} {t : Table n α} (h : Keyed key t)
    {i : Fin n} {a : α} (hi : t i = some a) :
    clear t i = SlotTable.erase t fun b => key b == key a := by
  funext j
  by_cases hj : j = i
  · subst hj
    simp [clear, SlotTable.erase, hi, Option.filter]
  · rw [clear, Function.update_of_ne hj, SlotTable.erase]
    cases hb : t j with
    | none => rfl
    | some b =>
      have hne : key b ≠ key a := fun heq => hj (h j i b a hb hi heq)
      simp [Option.filter, hne]

theorem Keyed.records_nodup {key : α → κ} {t : Table n α} (h : Keyed key t) :
    ((records t).map key).Nodup := by
  rw [records, List.map_filterMap]
  refine List.Nodup.filterMap ?_ (List.nodup_finRange n)
  intro i j k hi hj
  obtain ⟨a, ha, rfl⟩ := Option.map_eq_some_iff.mp hi
  obtain ⟨b, hb, hab⟩ := Option.map_eq_some_iff.mp hj
  exact h i j a b ha hb hab.symm

theorem keyed_ofList {key : α → κ} {l : List α} (h : (l.map key).Nodup) :
    Keyed key (ofList l : Table n α) := by
  intro i j a b hi hj hab
  have hi' : (l.map key)[i.val]? = some (key a) := by rw [List.getElem?_map, show l[i.val]? = some a from hi]; rfl
  have hj' : (l.map key)[j.val]? = some (key a) := by
    rw [List.getElem?_map, show l[j.val]? = some b from hj, hab]; rfl
  have hlt : i.val < (l.map key).length := (List.getElem?_eq_some_iff.mp hi').1
  exact Fin.ext ((List.getElem?_inj hlt h).mp (hi'.trans hj'.symm))

section Keys

variable [DecidableEq κ]

/-- The record with key `k`. -/
def lookup (key : α → κ) (t : Table n α) (k : κ) : Option α :=
  (find t fun a => decide (key a = k)).bind t

theorem lookup_eq_none {key : α → κ} {t : Table n α} {k : κ} :
    lookup key t k = none ↔ ∀ a, Holds t a → key a ≠ k := by
  rw [lookup]
  cases hf : find t fun a => decide (key a = k) with
  | none => simpa using find_eq_none.mp hf
  | some i =>
    obtain ⟨a, hi, hk⟩ := find_some hf
    constructor
    · intro h
      rw [Option.bind_some, hi] at h
      cases h
    · intro h
      exact absurd (of_decide_eq_true hk) (h a ⟨i, hi⟩)

theorem Keyed.lookup_eq_some {key : α → κ} {t : Table n α} (h : Keyed key t) {k : κ} {a : α} :
    lookup key t k = some a ↔ Holds t a ∧ key a = k := by
  constructor
  · intro hl
    obtain ⟨i, hf, hi⟩ := Option.bind_eq_some_iff.mp hl
    obtain ⟨b, hb, hk⟩ := find_some hf
    rw [hi] at hb
    obtain rfl := Option.some.inj hb
    exact ⟨⟨i, hi⟩, of_decide_eq_true hk⟩
  · rintro ⟨ha, hk⟩
    cases hl : lookup key t k with
    | none => exact absurd hk (lookup_eq_none.mp hl a ha)
    | some b =>
      obtain ⟨i, hf, hi⟩ := Option.bind_eq_some_iff.mp hl
      obtain ⟨c, hc, hkc⟩ := find_some hf
      rw [hi] at hc
      obtain rfl := Option.some.inj hc
      rw [h.eq_of_holds ⟨i, hi⟩ ha ((of_decide_eq_true hkc).trans hk.symm)]

theorem lookup_empty (key : α → κ) (k : κ) : lookup key (empty : Table n α) k = none :=
  lookup_eq_none.mpr fun a ha => absurd ha (not_holds_empty a)

/-- A record put into a free slot, when no record has its key. -/
theorem Keyed.set_free {key : α → κ} {t : Table n α} (h : Keyed key t) {i : Fin n} {a : α}
    (hfresh : lookup key t (key a) = none) : Keyed key (SlotTable.set t i a) :=
  h.set fun j b _ hj => lookup_eq_none.mp hfresh b ⟨j, hj⟩

theorem Keyed.lookup_set_free {key : α → κ} {t : Table n α} (h : Keyed key t) {i : Fin n} {a : α}
    (hi : t i = none) (hfresh : lookup key t (key a) = none) (k : κ) :
    lookup key (SlotTable.set t i a) k = if k = key a then some a else lookup key t k := by
  have hset := h.set_free (i := i) hfresh
  ext b
  rw [hset.lookup_eq_some, holds_set_free hi]
  split
  · next hk =>
    subst hk
    constructor
    · rintro ⟨rfl | hb, hkb⟩
      · rfl
      · exact absurd hkb (lookup_eq_none.mp hfresh b hb)
    · intro hb
      obtain rfl := Option.some.inj hb
      exact ⟨.inl rfl, rfl⟩
  · next hk =>
    rw [h.lookup_eq_some]
    constructor
    · rintro ⟨rfl | hb, hkb⟩
      · exact absurd hkb.symm hk
      · exact ⟨hb, hkb⟩
    · rintro ⟨hb, hkb⟩
      exact ⟨.inr hb, hkb⟩

theorem Keyed.lookup_set_used {key : α → κ} {t : Table n α} (h : Keyed key t) {i : Fin n}
    {a b : α} (hi : t i = some b) (hab : key a = key b) (k : κ) :
    lookup key (SlotTable.set t i a) k = if k = key a then some a else lookup key t k := by
  have hset := h.set_used hi hab
  ext c
  rw [hset.lookup_eq_some, h.holds_set_used hi]
  split
  · next hk =>
    subst hk
    constructor
    · rintro ⟨rfl | ⟨-, hne⟩, hkc⟩
      · rfl
      · exact absurd (hkc.trans hab) hne
    · intro hc
      obtain rfl := Option.some.inj hc
      exact ⟨.inl rfl, rfl⟩
  · next hk =>
    rw [h.lookup_eq_some]
    constructor
    · rintro ⟨rfl | ⟨hc, -⟩, hkc⟩
      · exact absurd hkc.symm hk
      · exact ⟨hc, hkc⟩
    · rintro ⟨hc, hkc⟩
      exact ⟨.inr ⟨hc, fun heq => hk (hkc.symm.trans (heq.trans hab.symm))⟩, hkc⟩

theorem Keyed.lookup_erase {key : α → κ} {t : Table n α} (h : Keyed key t) (p : α → Bool)
    (k : κ) : lookup key (SlotTable.erase t p) k = (lookup key t k).filter fun a => !p a := by
  ext a
  rw [(h.erase p).lookup_eq_some, holds_erase, Option.filter_eq_some_iff, h.lookup_eq_some]
  simp only [Bool.not_eq_true', and_right_comm]

/-- The keys of the records a table holds. -/
def keys (key : α → κ) (t : Table n α) : Finset κ := ((records t).map key).toFinset

theorem mem_keys {key : α → κ} {t : Table n α} {k : κ} :
    k ∈ keys key t ↔ (lookup key t k).isSome = true := by
  rw [← Option.ne_none_iff_isSome, ne_eq, lookup_eq_none]
  simp [keys, mem_records]

theorem Keyed.card_keys {key : α → κ} {t : Table n α} (h : Keyed key t) :
    (keys key t).card = inUse t := by
  rw [keys, List.toFinset_card_of_nodup h.records_nodup, List.length_map, length_records]

end Keys

-- a search through a thousand slots is never to be run by the elaborator
attribute [irreducible] find free least records

end Jukeboy.Base.SlotTable
