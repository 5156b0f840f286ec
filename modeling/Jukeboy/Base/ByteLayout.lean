import Mathlib.Algebra.GroupWithZero.Nat
import Jukeboy.Base.ByteFile

/-! # Fields that lie one behind the other

A record as the concatenation of its parts: where each part lies, that it is read back
from there, and what writing single bytes changes. -/
namespace Jukeboy.Base.ByteLayout

open Jukeboy.Base.ByteFile

/-- Where part `i` starts, the parts having these sizes. -/
def offset (sizes : List Nat) (i : Nat) : Nat := (sizes.take i).sum

/-- **A part is read back** from where it lies. -/
theorem slice_flatten {parts : List (List UInt8)} {sizes : List Nat} {i : Nat} {part : List UInt8}
    (hsizes : parts.map List.length = sizes) (h : parts[i]? = some part) (rest : List UInt8) :
    slice (parts.flatten ++ rest) (offset sizes i) part.length = part := by
  obtain ⟨hi, rfl⟩ := List.getElem?_eq_some_iff.mp h
  have hsplit : parts.flatten ++ rest =
      (parts.take i).flatten ++ (parts[i] ++ ((parts.drop (i + 1)).flatten ++ rest)) := by
    rw [← List.append_assoc parts[i], ← List.flatten_cons, ← List.drop_eq_getElem_cons hi,
      ← List.append_assoc, ← List.flatten_append, List.take_append_drop]
  have hoffset : offset sizes i = (parts.take i).flatten.length := by
    rw [offset, ← hsizes, ← List.map_take, List.length_flatten]
  rw [slice, hsplit, hoffset, List.drop_left, List.take_left]

theorem offset_replicate (size n i : Nat) (h : i ≤ n) :
    offset (List.replicate n size) i = size * i := by
  rw [offset, List.take_replicate, Nat.min_eq_left h, List.sum_replicate_nat, Nat.mul_comm]

/-- A slice of a slice. -/
theorem slice_slice (content : List UInt8) {o n p m : Nat} (h : p + m ≤ n) :
    slice (slice content o n) p m = slice content (o + p) m := by
  rw [slice, slice, slice, List.drop_take, List.drop_drop, List.take_take,
    Nat.min_eq_left (by omega)]

theorem getElem?_slice {content : List UInt8} {o n k : Nat} (h : k < n) :
    (slice content o n)[k]? = content[o + k]? := by
  rw [slice, List.getElem?_take_of_lt h, List.getElem?_drop]

/-! ## Writing a field -/

theorem overwrite_of_le {content : List UInt8} {start : Nat} (h : start ≤ content.length)
    (bytes : List UInt8) : overwrite content start bytes =
      content.take start ++ (bytes ++ content.drop (start + bytes.length)) := by
  rw [overwrite, resize, Nat.sub_eq_zero_of_le h, List.replicate_zero, List.append_nil,
    List.append_assoc]

/-- The second of two writes to a field is what stays. -/
theorem getElem?_overwrite {content : List UInt8} {start i : Nat} (bytes : List UInt8)
    (h : i < content.length) : (overwrite content start bytes)[i]? =
      if start ≤ i ∧ i < start + bytes.length then bytes[i - start]? else content[i]? := by
  have hlen : (resize start content).length = start := length_resize ..
  rw [overwrite, List.append_assoc]
  by_cases hlow : i < start
  · rw [List.getElem?_append_left (by omega), if_neg (by omega), resize,
      List.getElem?_append_left (by rw [List.length_take]; omega), List.getElem?_take_of_lt hlow]
  · rw [List.getElem?_append_right (by omega), hlen]
    by_cases hin : i < start + bytes.length
    · rw [if_pos ⟨by omega, hin⟩, List.getElem?_append_left (by omega)]
    · rw [if_neg (by omega), List.getElem?_append_right (by omega), List.getElem?_drop]
      congr 1
      omega

/-- Writes to fields that do not overlap can be exchanged. -/
theorem overwrite_comm {content : List UInt8} {start next : Nat} {a b : List UInt8}
    (hab : start + a.length ≤ next) (h : next + b.length ≤ content.length) :
    overwrite (overwrite content start a) next b =
      overwrite (overwrite content next b) start a := by
  have ha : (overwrite content start a).length = content.length := length_overwrite (by omega)
  have hb : (overwrite content next b).length = content.length := length_overwrite h
  refine List.ext_getElem? fun i => ?_
  by_cases hi : i < content.length
  · rw [getElem?_overwrite b (by omega), getElem?_overwrite a hi, getElem?_overwrite a (by omega),
      getElem?_overwrite b hi]
    by_cases hlow : i < next
    · have hout : ¬ (next ≤ i ∧ i < next + b.length) := by omega
      rw [if_neg hout, if_neg hout]
    · have hout : ¬ (start ≤ i ∧ i < start + a.length) := by omega
      rw [if_neg hout, if_neg hout]
  · rw [List.getElem?_eq_none, List.getElem?_eq_none]
    · rw [length_overwrite (by omega)]
      omega
    · rw [length_overwrite (by omega)]
      omega

theorem overwrite_overwrite {content old new : List UInt8} {start : Nat}
    (h : start ≤ content.length) (hlen : old.length = new.length) :
    overwrite (overwrite content start old) start new = overwrite content start new := by
  have htake : (content.take start).length = start := by
    rw [List.length_take, Nat.min_eq_left h]
  have hfirst := overwrite_of_le h old
  have hlong : start ≤ (overwrite content start old).length := by
    rw [hfirst, List.length_append, htake]
    omega
  rw [overwrite_of_le hlong, hfirst, List.take_left' htake, ← List.drop_drop,
    List.drop_left' htake, ← hlen, List.drop_left, overwrite_of_le h, hlen]

theorem overwrite_nil {content : List UInt8} {start : Nat} (h : start ≤ content.length) :
    overwrite content start [] = content := by
  rw [overwrite_of_le h, List.nil_append, List.length_nil, Nat.add_zero, List.take_append_drop]

/-- Two writes one behind the other are one. -/
theorem overwrite_append {content : List UInt8} {start : Nat} (h : start ≤ content.length)
    (a b : List UInt8) : overwrite (overwrite content start a) (start + a.length) b =
      overwrite content start (a ++ b) := by
  have hwritten : (content.take start ++ a).length = start + a.length := by
    rw [List.length_append, List.length_take, Nat.min_eq_left h]
  have hfirst : overwrite content start a =
      (content.take start ++ a) ++ content.drop (start + a.length) := by
    rw [overwrite_of_le h, List.append_assoc]
  have hlong : start + a.length ≤ (overwrite content start a).length := by
    rw [hfirst, List.length_append, hwritten]
    exact Nat.le_add_right ..
  rw [overwrite_of_le hlong, overwrite_of_le h (a ++ b), hfirst, List.take_left' hwritten,
    ← List.drop_drop, List.drop_left' hwritten, List.drop_drop, List.length_append]
  simp only [List.append_assoc, Nat.add_assoc]

/-- Writing back what is there changes nothing. -/
theorem overwrite_slice {content : List UInt8} {start n : Nat} (h : start + n ≤ content.length) :
    overwrite content start (slice content start n) = content := by
  have hlen : (slice content start n).length = n := by
    rw [slice, List.length_take, List.length_drop]
    omega
  rw [overwrite_of_le (by omega), hlen, ← List.drop_drop, slice, List.take_append_drop,
    List.take_append_drop]

/-- Bytes written from an index on, when they lie inside. -/
def writeInside (content : List UInt8) (start : Nat) (bytes : List UInt8) : Option (List UInt8) :=
  if start + bytes.length ≤ content.length then some (overwrite content start bytes) else none

/-- Bytes written behind a beginning. -/
theorem writeInside_append (body rest bytes : List UInt8) (hfits : bytes.length ≤ rest.length) :
    writeInside (body ++ rest) body.length bytes =
      some (body ++ (bytes ++ rest.drop bytes.length)) := by
  have hlen : body.length + bytes.length ≤ (body ++ rest).length := by
    rw [List.length_append]
    omega
  rw [writeInside, if_pos hlen, overwrite_of_le (by omega), List.take_left, ← List.drop_drop,
    List.drop_left]

/-! ## Copying blocks

The content with one block of another content of the same length. -/

section

variable {content blob : List UInt8} {o p n : Nat}

theorem slice_eq_iff {a b : List UInt8} :
    slice a o n = slice b o n ↔ ∀ k < n, a[o + k]? = b[o + k]? := by
  constructor
  · intro h k hk
    rw [← getElem?_slice hk, h, getElem?_slice hk]
  · intro h
    refine List.ext_getElem? fun k => ?_
    by_cases hk : k < n
    · rw [getElem?_slice hk, getElem?_slice hk, h k hk]
    · have hlong (c : List UInt8) : (slice c o n)[k]? = none := by
        rw [List.getElem?_eq_none_iff, slice, List.length_take]
        omega
      rw [hlong, hlong]

theorem getElem?_overwrite_slice (hlen : content.length = blob.length) (ho : o ≤ blob.length)
    (i : Nat) : (overwrite content o (slice blob o n))[i]? =
      if o ≤ i ∧ i < o + n then blob[i]? else content[i]? := by
  have hslice : (slice blob o n).length = min n (blob.length - o) := by
    rw [slice, List.length_take, List.length_drop]
  by_cases hi : i < content.length
  · rw [getElem?_overwrite _ hi, hslice]
    by_cases hin : o ≤ i ∧ i < o + n
    · rw [if_pos (by omega), if_pos hin, getElem?_slice (by omega), Nat.add_sub_cancel' hin.1]
    · rw [if_neg (by omega), if_neg hin]
  · have hlong : (overwrite content o (slice blob o n)).length = content.length :=
      length_overwrite (by omega)
    rw [List.getElem?_eq_none (by omega), List.getElem?_eq_none (by omega),
      List.getElem?_eq_none (by omega), ite_self]

/-- The block is copied. -/
theorem slice_overwrite_slice (hlen : content.length = blob.length) (ho : o ≤ blob.length) :
    slice (overwrite content o (slice blob o n)) o n = slice blob o n := by
  rw [slice_eq_iff]
  intro k hk
  rw [getElem?_overwrite_slice hlen ho, if_pos (by omega)]

/-- Every other block stays. -/
theorem slice_overwrite_of_apart (hlen : content.length = blob.length) (ho : o ≤ blob.length)
    (h : o + n ≤ p ∨ p + n ≤ o) :
    slice (overwrite content o (slice blob o n)) p n = slice content p n := by
  rw [slice_eq_iff]
  intro k hk
  rw [getElem?_overwrite_slice hlen ho, if_neg (by omega)]

end

/-! ## Single bytes -/

/-- The content with a zero written at each of these positions. -/
def zeroAt (positions : List Nat) (content : List UInt8) : List UInt8 :=
  positions.foldl (fun content k => content.set k 0) content

theorem zeroAt_cons (k : Nat) (positions : List Nat) (content : List UInt8) :
    zeroAt (k :: positions) content = zeroAt positions (content.set k 0) := rfl

theorem length_zeroAt (positions : List Nat) (content : List UInt8) :
    (zeroAt positions content).length = content.length := by
  induction positions generalizing content with
  | nil => rfl
  | cons k positions ih => rw [zeroAt_cons, ih, List.length_set]

/-- Every other byte stays. -/
theorem getElem?_zeroAt_of_notMem {positions : List Nat} {k : Nat} (h : k ∉ positions)
    (content : List UInt8) : (zeroAt positions content)[k]? = content[k]? := by
  induction positions generalizing content with
  | nil => rfl
  | cons p positions ih =>
    rw [List.mem_cons, not_or] at h
    rw [zeroAt_cons, ih h.2, List.getElem?_set_ne (Ne.symm h.1)]

theorem getElem?_zeroAt_of_mem {positions : List Nat} {k : Nat} (h : k ∈ positions)
    {content : List UInt8} (hk : k < content.length) : (zeroAt positions content)[k]? = some 0 := by
  induction positions generalizing content with
  | nil => cases h
  | cons p positions ih =>
    rw [zeroAt_cons]
    by_cases hmem : k ∈ positions
    · exact ih hmem (by rwa [List.length_set])
    · obtain rfl : k = p := (List.mem_cons.mp h).resolve_right hmem
      rw [getElem?_zeroAt_of_notMem hmem, List.getElem?_set_self hk]

/-- A block that no zero falls into stays. -/
theorem slice_zeroAt {positions : List Nat} {p n : Nat} (content : List UInt8)
    (h : ∀ k ∈ positions, k < p ∨ p + n ≤ k) :
    slice (zeroAt positions content) p n = slice content p n := by
  rw [slice_eq_iff]
  intro k hk
  refine getElem?_zeroAt_of_notMem (fun hmem => ?_) content
  rcases h _ hmem with hlt | hle
  · omega
  · omega

/-- Bytes that are zero already stay as well. -/
theorem zeroAt_eq_self {positions : List Nat} {content : List UInt8}
    (h : ∀ k ∈ positions, content[k]? = some 0) : zeroAt positions content = content := by
  induction positions with
  | nil => rfl
  | cons p positions ih =>
    rw [List.forall_mem_cons] at h
    obtain ⟨hp, hzero⟩ := List.getElem?_eq_some_iff.mp h.1
    have hset : content.set p 0 = content := by rw [← hzero, List.set_getElem_self]
    rw [zeroAt_cons, hset, ih h.2]

end Jukeboy.Base.ByteLayout
