import Mathlib.Data.List.Induction
import Mathlib.Data.List.Nodup

/-! # Tables of the latest entry of each key

A table with room for a number of entries: an entry replaces the one with its key,
goes behind the others, or finds the table full and is dropped. What is in it then is
the latest entry of each of the keys that came first. -/
namespace Jukeboy.Base.BoundedTable

variable {α κ : Type} [DecidableEq κ] (key : α → κ) (capacity : Nat)

/-- Stores an entry. -/
def put (a : α) (t : List α) : List α :=
  match t.findIdx? fun e => key e = key a with
  | some i => t.set i a
  | none => if t.length < capacity then t ++ [a] else t

/-- The keys of the entries, in the order of their first entry. -/
def keysOf (as : List α) : List κ :=
  as.foldl (fun ks a => if key a ∈ ks then ks else ks ++ [key a]) []

/-- The latest entry of a key. -/
def latest (as : List α) (k : κ) : Option α := as.reverse.find? fun a => key a = k

/-- The latest entry of a key that is one of the first. -/
def kept (as : List α) (k : κ) : Option α :=
  if k ∈ (keysOf key as).take capacity then latest key as k else none

/-- The table holds the latest entry of each of the first keys. -/
structure Holds (as t : List α) : Prop where
  keys : t.map key = (keysOf key as).take capacity
  latest : ∀ k, (t.find? fun e => key e = k) = kept key capacity as k

variable {key capacity} {as t : List α} {a : α} {k : κ}

theorem keysOf_concat (as : List α) (a : α) : keysOf key (as ++ [a]) =
    if key a ∈ keysOf key as then keysOf key as else keysOf key as ++ [key a] := by
  unfold keysOf
  rw [List.foldl_append]
  rfl

theorem latest_concat (as : List α) (a : α) (k : κ) :
    latest key (as ++ [a]) k = if key a = k then some a else latest key as k := by
  unfold latest
  rw [List.reverse_append, List.reverse_singleton, List.singleton_append, List.find?_cons]
  by_cases h : key a = k
  · rw [if_pos h, decide_eq_true h]
  · rw [if_neg h, decide_eq_false h]

theorem keysOf_nodup (as : List α) : (keysOf key as).Nodup := by
  induction as using List.reverseRecOn with
  | nil => exact List.nodup_nil
  | append_singleton as a ih =>
    rw [keysOf_concat]
    split
    · exact ih
    · next hnew =>
      refine List.nodup_append.mpr ⟨ih, List.nodup_singleton _, ?_⟩
      intro x hx y hy hxy
      rw [List.mem_singleton.mp hy] at hxy
      exact hnew (hxy ▸ hx)

/-- An entry takes the place of the first one with its key. -/
theorem find?_set {i : Nat} (h : (t.findIdx? fun e => key e = key a) = some i) (k : κ) :
    ((t.set i a).find? fun e => key e = k) =
      if key a = k then some a else t.find? fun e => key e = k := by
  induction t generalizing i with
  | nil => cases h
  | cons e rest ih =>
    rw [List.findIdx?_cons] at h
    by_cases he : key e = key a
    · rw [if_pos (decide_eq_true he), Option.some.injEq] at h
      subst h
      rw [List.set_cons_zero, List.find?_cons, List.find?_cons, he]
      by_cases hk : key a = k
      · rw [if_pos hk, decide_eq_true hk]
      · rw [if_neg hk, decide_eq_false hk]
    · rw [if_neg (by simp [he]), Option.map_eq_some_iff] at h
      obtain ⟨j, hj, rfl⟩ := h
      rw [List.set_cons_succ, List.find?_cons, List.find?_cons, ih hj]
      by_cases hk : key e = k
      · have hne : key a ≠ k := fun h => he (hk.trans h.symm)
        rw [decide_eq_true hk]
        exact (if_neg hne).symm
      · rw [decide_eq_false hk]

theorem map_set {i : Nat} (h : (t.findIdx? fun e => key e = key a) = some i) :
    (t.set i a).map key = t.map key := by
  obtain ⟨hi, hkey, -⟩ := List.findIdx?_eq_some_iff_getElem.mp h
  have hlen : i < (t.map key).length := by rwa [List.length_map]
  have hsame : key a = (t.map key)[i] := by
    rw [List.getElem_map]
    exact (of_decide_eq_true hkey).symm
  rw [List.map_set, hsame, List.set_getElem_self]

theorem put_mem {i : Nat} (h : (t.findIdx? fun e => key e = key a) = some i) :
    put key capacity a t = t.set i a := by
  rw [put, h]

theorem put_new (h : (t.findIdx? fun e => key e = key a) = none) :
    put key capacity a t = if t.length < capacity then t ++ [a] else t := by
  rw [put, h]

theorem findIdx?_none (h : (t.findIdx? fun e => key e = key a) = none) : key a ∉ t.map key := by
  intro hmem
  obtain ⟨e, he, hkey⟩ := List.mem_map.mp hmem
  have hnot := List.findIdx?_eq_none_iff.mp h e he
  exact of_decide_eq_false hnot hkey

theorem holds_nil : Holds key capacity [] ([] : List α) where
  keys := List.take_nil.symm
  latest k := by
    rw [kept, if_neg]
    · rfl
    · rw [keysOf, List.foldl_nil, List.take_nil]
      exact List.not_mem_nil

/-- **Storing.** The table goes on holding the latest entries. -/
theorem holds_put (h : Holds key capacity as t) (a : α) :
    Holds key capacity (as ++ [a]) (put key capacity a t) := by
  have hlen : t.length = min capacity (keysOf key as).length := by
    rw [← List.length_map key, h.keys, List.length_take]
  cases hfound : t.findIdx? fun e => key e = key a with
  | some i =>
    -- the key is in the table, so no new one comes
    have hin : key a ∈ (keysOf key as).take capacity := by
      rw [← h.keys, ← map_set hfound]
      obtain ⟨hi, -⟩ := List.findIdx?_eq_some_iff_getElem.mp hfound
      exact List.mem_map_of_mem (List.mem_set hi a)
    have hkeys : keysOf key (as ++ [a]) = keysOf key as := by
      rw [keysOf_concat, if_pos (List.mem_of_mem_take hin)]
    rw [put_mem hfound]
    constructor
    · rw [map_set hfound, hkeys, h.keys]
    · intro k
      rw [find?_set hfound, h.latest, kept, kept, hkeys, latest_concat]
      by_cases hk : key a = k
      · rw [if_pos hk, if_pos (hk ▸ hin), if_pos hk]
      · rw [if_neg hk, if_neg hk]
  | none =>
    have hout : key a ∉ (keysOf key as).take capacity := h.keys ▸ findIdx?_none hfound
    rw [put_new hfound]
    by_cases hroom : t.length < capacity
    · have hall : (keysOf key as).length < capacity := by omega
      rw [List.take_of_length_le (Nat.le_of_lt hall)] at hout
      have hkeys : keysOf key (as ++ [a]) = keysOf key as ++ [key a] := by
        rw [keysOf_concat, if_neg hout]
      have htake : (keysOf key (as ++ [a])).take capacity = keysOf key as ++ [key a] := by
        rw [hkeys, List.take_of_length_le (by rw [List.length_append]; exact hall)]
      have hheld := h.keys
      rw [List.take_of_length_le (Nat.le_of_lt hall)] at hheld
      rw [if_pos hroom]
      constructor
      · rw [List.map_append, hheld, htake, List.map_singleton]
      · intro k
        rw [List.find?_append, h.latest, kept, kept, htake, latest_concat,
          List.take_of_length_le (Nat.le_of_lt hall)]
        by_cases hk : key a = k
        · have hfree : k ∉ keysOf key as := hk ▸ hout
          simp [hk, hfree]
        · simp [hk, Ne.symm hk]
    · have hfull : capacity ≤ (keysOf key as).length := by omega
      have htake : (keysOf key (as ++ [a])).take capacity = (keysOf key as).take capacity := by
        rw [keysOf_concat]
        split
        · rfl
        · exact List.take_append_of_le_length hfull
      rw [if_neg hroom]
      constructor
      · rw [htake, h.keys]
      · intro k
        rw [h.latest, kept, kept, htake, latest_concat]
        by_cases hk : key a = k
        · rw [if_neg (hk ▸ hout), if_neg (hk ▸ hout)]
        · rw [if_neg hk]

/-- An entry of the table is the latest one of its key. -/
theorem Holds.latest_mem (h : Holds key capacity as t) (ha : a ∈ t) :
    key a ∈ (keysOf key as).take capacity ∧ BoundedTable.latest key as (key a) = some a := by
  have hin : key a ∈ (keysOf key as).take capacity := h.keys ▸ List.mem_map_of_mem ha
  have hnodup : (t.map key).Nodup := by
    rw [h.keys]
    exact (keysOf_nodup as).sublist (List.take_sublist _ _)
  have hfind : (t.find? fun e => key e = key a) = some a := by
    have hsome : (t.find? fun e => key e = key a).isSome :=
      List.find?_isSome.mpr ⟨a, ha, by rw [decide_eq_true_iff]⟩
    obtain ⟨e, he⟩ := Option.isSome_iff_exists.mp hsome
    have hkey : key e = key a := by simpa using List.find?_some he
    rw [he, List.inj_on_of_nodup_map hnodup (List.mem_of_find?_eq_some he) ha hkey]
  refine ⟨hin, ?_⟩
  rw [← hfind, h.latest, kept, if_pos hin]

theorem mem_put {e : α} (h : e ∈ put key capacity a t) : e = a ∨ e ∈ t := by
  unfold put at h
  split at h
  · exact (List.mem_or_eq_of_mem_set h).symm
  · split at h
    · exact (List.mem_append.mp h).elim .inr fun h => .inl (List.mem_singleton.mp h)
    · exact .inr h

end Jukeboy.Base.BoundedTable
