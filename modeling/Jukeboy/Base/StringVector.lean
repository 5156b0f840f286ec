import Jukeboy.Base.ByteFile
import Jukeboy.Base.LittleEndian

/-! # A vector of strings in one block

A table of offsets that ends with 0, and behind it the strings they point to, each ended
with a NUL. -/
namespace Jukeboy.Base.StringVector

open Jukeboy.Base.ByteFile Jukeboy.Base.LittleEndian

abbrev Bytes := List UInt8

/-- The strings one behind the other. -/
def storage (strings : List Bytes) : Bytes := strings.flatMap fun s => s ++ [0]

/-- Where each of them starts, the first at `base`. -/
def starts : Nat → List Bytes → List Nat
  | _, [] => []
  | base, s :: strings => base :: starts (base + (s.length + 1)) strings

/-- The table, which points behind itself, and the strings. -/
def block (base : Nat) (strings : List Bytes) : Bytes :=
  (starts (base + 4 * (strings.length + 1)) strings ++ [0]).flatMap (leBytes 4) ++ storage strings

/-! ## How it is read -/

def entry (memory : Bytes) (base i : Nat) : Nat := leNat (slice memory (base + 4 * i) 4)

def stringAt (memory : Bytes) (start : Nat) : Bytes := (memory.drop start).takeWhile (· != 0)

def vector (memory : Bytes) (base count : Nat) : List Bytes :=
  (List.range count).map fun i => stringAt memory (entry memory base i)

/-- Every offset points to a NUL-terminated string inside the block and behind the table,
which ends with 0. -/
structure WellPlaced (memory : Bytes) (base size count : Nat) : Prop where
  behind : ∀ i < count, base + 4 * (count + 1) ≤ entry memory base i
  inside : ∀ i < count,
    entry memory base i + (stringAt memory (entry memory base i)).length < base + size
  terminated : ∀ i < count,
    memory[entry memory base i + (stringAt memory (entry memory base i)).length]? = some 0
  ends : entry memory base count = 0

/-! ## Where the strings are -/

variable {base i : Nat} {s : Bytes} {strings : List Bytes}

theorem storage_cons (s : Bytes) (strings : List Bytes) :
    storage (s :: strings) = s ++ 0 :: storage strings := by
  rw [storage, List.flatMap_cons, List.append_assoc]
  rfl

@[simp] theorem length_starts (base : Nat) (strings : List Bytes) :
    (starts base strings).length = strings.length := by
  induction strings generalizing base with
  | nil => rfl
  | cons s strings ih => rw [starts, List.length_cons, ih, List.length_cons]

/-- A string, with what is before and behind it. -/
theorem storage_split (base : Nat) (h : strings[i]? = some s) : ∃ before after,
    storage strings = before ++ (s ++ 0 :: after) ∧
    (starts base strings)[i]? = some (base + before.length) := by
  induction strings generalizing base i with
  | nil => cases h
  | cons a strings ih =>
    rw [storage_cons]
    cases i with
    | zero =>
      rw [List.getElem?_cons_zero, Option.some.injEq] at h
      subst h
      exact ⟨[], storage strings, rfl, rfl⟩
    | succ i =>
      rw [List.getElem?_cons_succ] at h
      obtain ⟨before, after, hsplit, hstart⟩ := ih (base + (a.length + 1)) h
      refine ⟨a ++ 0 :: before, after, ?_, ?_⟩
      · rw [hsplit, List.append_assoc, List.cons_append]
      · rw [starts, List.getElem?_cons_succ, hstart, List.length_append, List.length_cons]
        exact congrArg some (by omega)

theorem length_table (table : List Nat) : (table.flatMap (leBytes 4)).length = 4 * table.length := by
  induction table with
  | nil => rfl
  | cons v table ih =>
    rw [List.flatMap_cons, List.length_append, length_leBytes, ih, List.length_cons]
    omega

theorem length_block (base : Nat) (strings : List Bytes) :
    (block base strings).length = 4 * (strings.length + 1) + (storage strings).length := by
  rw [block, List.length_append, length_table, List.length_append, length_starts]
  rfl

/-! ## A block in memory -/

/-- The memory holds the block. -/
structure Holds (memory : Bytes) (base : Nat) (strings : List Bytes) : Prop where
  content : ∃ before after, memory = before ++ (block base strings ++ after) ∧ before.length = base
  /-- Offsets have 32 bits. -/
  bound : base + (block base strings).length ≤ 2 ^ 32

variable {memory : Bytes}

theorem Holds.entry {v : Nat} (h : Holds memory base strings)
    (hv : (starts (base + 4 * (strings.length + 1)) strings ++ [0])[i]? = some v) (hlt : v < 2 ^ 32) :
    entry memory base i = v := by
  obtain ⟨before, after, rfl, rfl⟩ := h.content
  rw [StringVector.entry, slice, ← List.drop_drop, List.drop_left, block, List.append_assoc]
  exact leNat_table_entry _ _ hv hlt

/-- What is behind the table. -/
theorem Holds.drop_table (h : Holds memory base strings) :
    ∃ after, memory.drop (base + 4 * (strings.length + 1)) = storage strings ++ after := by
  obtain ⟨before, after, rfl, rfl⟩ := h.content
  have htable : ((starts (before.length + 4 * (strings.length + 1)) strings ++ [0]).flatMap
      (leBytes 4)).length = 4 * (strings.length + 1) := by
    rw [length_table, List.length_append, length_starts]
    rfl
  refine ⟨after, ?_⟩
  rw [← List.drop_drop, List.drop_left, block, List.append_assoc, List.drop_left' htable]

/-- What is at the offset of a string. -/
theorem Holds.found (h : Holds memory base strings) (hs : strings[i]? = some s) :
    ∃ rest, memory.drop (StringVector.entry memory base i) = s ++ 0 :: rest ∧
      base + 4 * (strings.length + 1) ≤ StringVector.entry memory base i ∧
      StringVector.entry memory base i + s.length < base + (block base strings).length := by
  obtain ⟨before, after, hsplit, hstart⟩ := storage_split (base + 4 * (strings.length + 1)) hs
  have hlen : (storage strings).length = before.length + (s.length + (after.length + 1)) := by
    rw [hsplit, List.length_append, List.length_append, List.length_cons]
  have hblock := length_block base strings
  have hbound := h.bound
  have hi : i < strings.length := (List.getElem?_eq_some_iff.mp hs).1
  have hentry : StringVector.entry memory base i =
      base + 4 * (strings.length + 1) + before.length := by
    refine h.entry ?_ (by omega)
    rw [List.getElem?_append_left (by rwa [length_starts]), hstart]
  obtain ⟨high, hhigh⟩ := h.drop_table
  rw [hentry]
  refine ⟨after ++ high, ?_, Nat.le_add_right .., by omega⟩
  rw [← List.drop_drop, hhigh, hsplit, List.append_assoc, List.drop_left, List.append_assoc,
    List.cons_append]

theorem takeWhile_terminated (h : 0 ∉ s) (rest : Bytes) :
    (s ++ 0 :: rest).takeWhile (· != 0) = s := by
  rw [List.takeWhile_append_of_pos, List.takeWhile_cons]
  · exact List.append_nil s
  · intro c hc
    have hne : c ≠ 0 := fun heq => h (heq ▸ hc)
    simpa using hne

theorem Holds.stringAt (h : Holds memory base strings) (hs : strings[i]? = some s) (hzero : 0 ∉ s) :
    StringVector.stringAt memory (StringVector.entry memory base i) = s := by
  obtain ⟨rest, hrest, -⟩ := h.found hs
  rw [StringVector.stringAt, hrest, takeWhile_terminated hzero]

/-- **The strings are read back.** -/
theorem Holds.vector (h : Holds memory base strings) (hzero : ∀ s ∈ strings, 0 ∉ s) :
    vector memory base strings.length = strings := by
  refine List.ext_getElem? fun i => ?_
  rw [StringVector.vector, List.getElem?_map]
  by_cases hi : i < strings.length
  · have hs : strings[i]? = some strings[i] := List.getElem?_eq_getElem hi
    rw [List.getElem?_range hi, Option.map_some, hs,
      h.stringAt hs (hzero _ (List.getElem_mem hi))]
  · have hrange : (List.range strings.length)[i]? = none := by
      rw [List.getElem?_eq_none_iff, List.length_range]
      omega
    rw [hrange, List.getElem?_eq_none (by omega)]
    rfl

theorem Holds.wellPlaced (h : Holds memory base strings) (hzero : ∀ s ∈ strings, 0 ∉ s) :
    WellPlaced memory base (block base strings).length strings.length where
  behind i hi := by
    obtain ⟨-, -, hbehind, -⟩ := h.found (List.getElem?_eq_getElem hi)
    exact hbehind
  inside i hi := by
    have hs := List.getElem?_eq_getElem hi
    obtain ⟨-, -, -, hinside⟩ := h.found hs
    rwa [h.stringAt hs (hzero _ (List.getElem_mem hi))]
  terminated i hi := by
    have hs := List.getElem?_eq_getElem hi
    obtain ⟨rest, hrest, -⟩ := h.found hs
    rw [h.stringAt hs (hzero _ (List.getElem_mem hi)), ← List.getElem?_drop, hrest,
      List.getElem?_append_right (Nat.le_refl _), Nat.sub_self, List.getElem?_cons_zero]
  ends := by
    refine h.entry ?_ (by decide)
    rw [List.getElem?_append_right (by rw [length_starts]), length_starts, Nat.sub_self]
    rfl

end Jukeboy.Base.StringVector
