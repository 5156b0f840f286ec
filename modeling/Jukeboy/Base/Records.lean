import Mathlib.Data.List.Basic
import Mathlib.Tactic.Common
import Jukeboy.Base.LittleEndian
import Jukeboy.Base.SlotTable

/-! # Records of a fixed size in byte strings

A codec writes the values of a type as byte strings of one length and reads them
back. Codecs compose field by field, and a table's records written one behind
the other fill a table again, in the same order. -/
namespace Jukeboy.Base.Records

open Jukeboy.Base.LittleEndian Jukeboy.Base.SlotTable

variable {α β ε : Type} {n : Nat}

/-- Values as byte strings of one size: every value is read back from its own
bytes, and every string of the size is some value's. -/
structure Codec (α : Type) where
  size : Nat
  encode : α → List UInt8
  decode : List UInt8 → α
  length_encode : ∀ a, (encode a).length = size
  decode_encode : ∀ a rest, decode (encode a ++ rest) = a
  encode_decode : ∀ bytes, size ≤ bytes.length → encode (decode bytes) = bytes.take size

/-- A `uint32_t`, least significant byte first. -/
def u32 : Codec UInt32 where
  size := 4
  encode v := leBytes 4 v.toNat
  decode bytes := UInt32.ofNat (leNat (bytes.take 4))
  length_encode v := length_leBytes 4 v.toNat
  decode_encode v rest := by
    rw [leNat_take_leBytes rest v.toNat_lt, UInt32.ofNat_toNat]
  encode_decode bytes h := by
    have hlen : (bytes.take 4).length = 4 := List.length_take_of_le h
    have hlt : leNat (bytes.take 4) < 2 ^ 32 := by
      have := leNat_lt (bytes.take 4)
      rwa [hlen] at this
    have hback := leBytes_leNat (bytes.take 4)
    rw [hlen] at hback
    rw [UInt32.toNat_ofNat_of_lt' hlt, hback]

/-- Two fields one behind the other. -/
def pair (c : Codec α) (d : Codec β) : Codec (α × β) where
  size := c.size + d.size
  encode v := c.encode v.1 ++ d.encode v.2
  decode bytes := (c.decode bytes, d.decode (bytes.drop c.size))
  length_encode v := by rw [List.length_append, c.length_encode, d.length_encode]
  decode_encode v rest := by
    rw [List.append_assoc, c.decode_encode, List.drop_left' (c.length_encode v.1),
      d.decode_encode]
  encode_decode bytes h := by
    have hd : d.size ≤ (bytes.drop c.size).length := by
      rw [List.length_drop]
      omega
    rw [c.encode_decode bytes (le_of_add_le_left h), d.encode_decode _ hd, List.take_add]

/-- The codec of a type that stands in bijection with another. -/
def ofEquiv (c : Codec β) (e : α ≃ β) : Codec α where
  size := c.size
  encode a := c.encode (e a)
  decode bytes := e.symm (c.decode bytes)
  length_encode a := c.length_encode (e a)
  decode_encode a rest := by rw [c.decode_encode, e.symm_apply_apply]
  encode_decode bytes h := by rw [e.apply_symm_apply, c.encode_decode bytes h]

/-- The records one behind the other. -/
def encodeAll (c : Codec α) (records : List α) : List UInt8 := records.flatMap c.encode

theorem length_encodeAll (c : Codec α) (records : List α) :
    (encodeAll c records).length = records.length * c.size := by
  induction records with
  | nil => simp [encodeAll]
  | cons a rest ih =>
    rw [encodeAll, List.flatMap_cons, List.length_append, c.length_encode, ← encodeAll, ih,
      List.length_cons, Nat.succ_mul, Nat.add_comm]

/-- `count` records read into the free slots of a table: the table and the
number of its records, and the bytes left. -/
def readRecords (c : Codec α) (short full : ε) :
    Nat → List UInt8 → Table n α → Nat → Except ε (List UInt8 × Table n α × Nat)
  | 0, bytes, t, held => .ok (bytes, t, held)
  | count + 1, bytes, t, held =>
    if bytes.length < c.size then .error short else
    match free t with
    | none => .error full
    | some slot =>
      readRecords c short full count (bytes.drop c.size) (set t slot (c.decode bytes)) (held + 1)

/-- The next record goes behind the ones already read. -/
theorem free_ofList {done : List α} (h : done.length < n) :
    free (ofList done : Table n α) = some ⟨done.length, h⟩ := by
  rw [free, List.find?_eq_some_iff_getElem]
  refine ⟨by simp [ofList], done.length, by simpa using h, by simp, fun j hj => ?_⟩
  simp [ofList, hj]

theorem set_ofList {done : List α} (h : done.length < n) (a : α) :
    set (ofList done : Table n α) ⟨done.length, h⟩ a = ofList (done ++ [a]) := by
  funext i
  by_cases hi : i = ⟨done.length, h⟩
  · subst hi
    simp [SlotTable.set, ofList]
  · have hne : i.val ≠ done.length := fun heq => hi (Fin.ext heq)
    rw [SlotTable.set, Function.update_of_ne hi, ofList, ofList]
    rcases Nat.lt_or_gt_of_ne hne with hlt | hgt
    · rw [List.getElem?_append_left hlt]
    · rw [List.getElem?_eq_none hgt.le, List.getElem?_eq_none]
      rw [List.length_append, List.length_singleton]
      exact hgt

/-- **Reading back.** The records written are read into the slots in order. -/
theorem readRecords_encodeAll (c : Codec α) {short full : ε} {records done : List α}
    (rest : List UInt8) (h : done.length + records.length ≤ n) :
    readRecords c short full records.length (encodeAll c records ++ rest)
        (ofList done : Table n α) done.length =
      .ok (rest, ofList (done ++ records), done.length + records.length) := by
  induction records generalizing done with
  | nil => simp [readRecords, encodeAll]
  | cons a records ih =>
    have hlt : done.length < n := by
      rw [List.length_cons] at h
      omega
    have hlong : ¬ (encodeAll c (a :: records) ++ rest).length < c.size := by
      rw [List.length_append, length_encodeAll, List.length_cons, Nat.succ_mul]
      omega
    have hhead : encodeAll c (a :: records) ++ rest =
        c.encode a ++ (encodeAll c records ++ rest) := by
      rw [encodeAll, List.flatMap_cons, List.append_assoc, ← encodeAll]
    have hnext := @ih (done ++ [a]) (by
      rw [List.length_append, List.length_singleton, Nat.add_assoc, Nat.add_comm 1]
      exact h)
    rw [List.length_append, List.length_singleton, List.append_assoc, List.singleton_append]
      at hnext
    rw [List.length_cons, readRecords, if_neg hlong, free_ofList hlt]
    simp only [hhead, c.decode_encode, List.drop_left' (c.length_encode a), set_ofList hlt, hnext]
    rw [Nat.add_assoc, Nat.add_comm 1]

/-! ## What any bytes give -/

theorem range_filterMap_getElem? (records : List α) (h : records.length ≤ n) :
    ((List.range n).filterMap fun k => records[k]?) = records := by
  induction records generalizing n with
  | nil => exact List.filterMap_eq_nil_iff.mpr fun k _ => List.getElem?_nil
  | cons a rest ih =>
    cases n with
    | zero => cases h
    | succ n =>
      rw [List.range_succ_eq_map, List.filterMap_cons_some (by rfl), List.filterMap_map]
      exact congrArg _ (ih (Nat.le_of_succ_le_succ h))

theorem records_ofList {l : List α} (h : l.length ≤ n) : records (ofList l : Table n α) = l := by
  have hrange := range_filterMap_getElem? l h
  rw [← List.map_coe_finRange_eq_range, List.filterMap_map] at hrange
  rw [records]
  exact hrange

theorem free_ofList_full {done : List α} (h : n ≤ done.length) :
    free (ofList done : Table n α) = none := by
  rw [free, List.find?_eq_none]
  intro i _
  simp [ofList, i.isLt.trans_le h]

/-- **Records read are records written**: what fills the slots is a list of
records whose bytes were read. -/
theorem readRecords_ok (c : Codec α) {short full : ε} {count held : Nat} {bytes rest : List UInt8}
    {done : List α} {t : Table n α}
    (h : readRecords c short full count bytes (ofList done : Table n α) done.length =
      .ok (rest, t, held)) (hdone : done.length ≤ n) :
    ∃ l : List α, l.length = count ∧ bytes = encodeAll c l ++ rest ∧ t = ofList (done ++ l) ∧
      held = (done ++ l).length ∧ (done ++ l).length ≤ n := by
  induction count generalizing bytes done with
  | zero =>
    cases h
    exact ⟨[], rfl, rfl, by rw [List.append_nil], by rw [List.append_nil], by rwa [List.append_nil]⟩
  | succ count ih =>
    rw [readRecords] at h
    split at h
    · cases h
    · next hlong =>
      by_cases hlt : done.length < n
      · simp only [free_ofList hlt, set_ofList hlt] at h
        have hlen : (done ++ [c.decode bytes]).length = done.length + 1 := List.length_append
        obtain ⟨l, hcount, hbytes, ht, hheld, hle⟩ := @ih _ (done ++ [c.decode bytes])
          (by rw [hlen]; exact h) (by rw [hlen]; exact hlt)
        rw [List.append_assoc, List.singleton_append] at ht hheld hle
        refine ⟨c.decode bytes :: l, by rw [List.length_cons, hcount], ?_, ht, hheld, hle⟩
        rw [encodeAll, List.flatMap_cons, c.encode_decode bytes (Nat.not_lt.mp hlong), ← encodeAll,
          List.append_assoc, ← hbytes, List.take_append_drop]
      · rw [free_ofList_full (Nat.not_lt.mp hlt)] at h
        cases h

theorem readRecords_error {c : Codec α} {short full e : ε} {count held : Nat}
    {bytes : List UInt8} {t : Table n α} (h : readRecords c short full count bytes t held = .error e) :
    e = short ∨ e = full := by
  induction count generalizing bytes t held with
  | zero => cases h
  | succ count ih =>
    rw [readRecords] at h
    split at h
    · exact .inl (Except.error.inj h).symm
    · split at h
      · exact .inr (Except.error.inj h).symm
      · exact ih h

end Jukeboy.Base.Records
