import Mathlib.Data.List.Basic
import Mathlib.Tactic.Common

/-! # A byte file whose operations may fail

One file, the operations done on it so far, and an environment that says of each
operation whether it succeeds and what a failed change leaves behind. A change
that succeeds does what it says; a failed one may leave anything. -/
namespace Jukeboy.Base.ByteFile

/-- The environment: which operations succeed, and what the file is after a
change that failed. -/
structure Faults where
  succeeds : Nat → Bool
  debris : Nat → Option (List UInt8)

structure Disk where
  file : Option (List UInt8)
  ops : Nat
  writes : List (Nat × List UInt8)

def Disk.content (d : Disk) : List UInt8 := d.file.getD []

/-- An operation that leaves the file alone. -/
def look (f : Faults) (d : Disk) : Bool × Disk :=
  (f.succeeds d.ops, { d with ops := d.ops + 1 })

/-- An operation that makes the file `file` when it succeeds. -/
def change (f : Faults) (file : Option (List UInt8)) (d : Disk) : Bool × Disk :=
  if f.succeeds d.ops then (true, { d with file, ops := d.ops + 1 })
  else (false, { d with file := f.debris d.ops, ops := d.ops + 1 })

/-- The first `n` bytes, zeros where the content ends early. -/
def resize (n : Nat) (content : List UInt8) : List UInt8 :=
  content.take n ++ List.replicate (n - content.length) 0

/-- The content with `bytes` written at an offset. -/
def overwrite (content : List UInt8) (offset : Nat) (bytes : List UInt8) : List UInt8 :=
  resize offset content ++ bytes ++ content.drop (offset + bytes.length)

/-- The bytes between an offset and the next multiple of a block. -/
def slice (content : List UInt8) (offset length : Nat) : List UInt8 :=
  (content.drop offset).take length

/-! ## Outcomes -/

@[simp] theorem look_file (f : Faults) (d : Disk) : (look f d).2.file = d.file := rfl

theorem change_true {f : Faults} {file : Option (List UInt8)} {d d' : Disk}
    (h : change f file d = (true, d')) : d'.file = file ∧ d'.writes = d.writes := by
  unfold change at h
  split at h
  · cases h
    exact ⟨rfl, rfl⟩
  · cases h

/-! ## Content -/

@[simp] theorem length_resize (n : Nat) (content : List UInt8) : (resize n content).length = n := by
  simp only [resize, List.length_append, List.length_take, List.length_replicate]
  omega

@[simp] theorem resize_zero (content : List UInt8) : resize 0 content = [] := by
  rw [resize, List.take_zero, Nat.zero_sub]
  rfl

/-- Cut to the length of its beginning. -/
theorem resize_append (content rest : List UInt8) :
    resize content.length (content ++ rest) = content := by
  rw [resize, List.take_left, List.length_append, Nat.sub_eq_zero_of_le (Nat.le_add_right ..)]
  exact List.append_nil _

theorem length_overwrite {content bytes : List UInt8} {offset : Nat}
    (h : offset + bytes.length ≤ content.length) :
    (overwrite content offset bytes).length = content.length := by
  simp only [overwrite, List.length_append, length_resize, List.length_drop]
  omega

theorem length_slice {content : List UInt8} {offset length : Nat}
    (h : offset + length ≤ content.length) : (slice content offset length).length = length := by
  rw [slice, List.length_take, List.length_drop]
  omega

/-- A slice, then what is behind it. -/
theorem drop_eq_slice_append (content : List UInt8) (offset length : Nat) :
    content.drop offset = slice content offset length ++ content.drop (offset + length) := by
  rw [slice, ← List.drop_drop, List.take_append_drop]

/-- Contents of one length that agree block by block are equal. -/
theorem eq_of_slices {a b : List UInt8} {block count : Nat} (hlen : a.length = b.length)
    (hblock : 0 < block) (hcount : b.length ≤ block * count)
    (h : ∀ k < count, slice a (k * block) block = slice b (k * block) block) : a = b := by
  refine List.ext_getElem? fun i => ?_
  by_cases hi : i < b.length
  · have hk : i / block < count :=
      Nat.div_lt_of_lt_mul (Nat.lt_of_lt_of_le hi hcount)
    have hmod : i % block < block := Nat.mod_lt i hblock
    have hsum : i / block * block + i % block = i := by
      rw [Nat.mul_comm]
      exact Nat.div_add_mod i block
    have hat := congrArg (fun l : List UInt8 => l[i % block]?) (h (i / block) hk)
    simp only [slice, List.getElem?_take_of_lt hmod, List.getElem?_drop, hsum] at hat
    exact hat
  · rw [List.getElem?_eq_none (Nat.not_lt.mp hi), List.getElem?_eq_none]
    rw [hlen]
    exact Nat.not_lt.mp hi

end Jukeboy.Base.ByteFile
