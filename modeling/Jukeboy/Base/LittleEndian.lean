import Mathlib.Data.List.Basic
import Mathlib.Tactic.Common
import Mathlib.Tactic.Ring

/-! # Little-endian integers in byte strings

The number a byte string spells least significant byte first, and the byte
string of a given width that spells a number. -/
namespace Jukeboy.Base.LittleEndian

/-- The number the bytes spell, least significant byte first. -/
def leNat : List UInt8 → Nat
  | [] => 0
  | b :: bs => b.toNat + 256 * leNat bs

/-- The `w` bytes that spell `v` modulo `256 ^ w`. -/
def leBytes : Nat → Nat → List UInt8
  | 0, _ => []
  | w + 1, v => UInt8.ofNat (v % 256) :: leBytes w (v / 256)

@[simp] theorem length_leBytes (w v : Nat) : (leBytes w v).length = w := by
  induction w generalizing v with
  | zero => rfl
  | succ w ih => simp [leBytes, ih]

theorem leNat_lt (bs : List UInt8) : leNat bs < 256 ^ bs.length := by
  induction bs with
  | nil => simp [leNat]
  | cons b bs ih =>
    have hb : b.toNat < 256 := b.toNat_lt
    simp only [leNat, List.length_cons, Nat.pow_succ]
    omega

theorem leNat_leBytes (w v : Nat) : leNat (leBytes w v) = v % 256 ^ w := by
  induction w generalizing v with
  | zero => simp [leBytes, leNat, Nat.mod_one]
  | succ w ih =>
    have hb : (UInt8.ofNat (v % 256)).toNat = v % 256 := by
      simp
    rw [leBytes, leNat, hb, ih, Nat.pow_succ, Nat.mul_comm (256 ^ w) 256,
      Nat.mod_mul]

theorem leNat_leBytes_of_lt {w v : Nat} (h : v < 256 ^ w) : leNat (leBytes w v) = v := by
  rw [leNat_leBytes, Nat.mod_eq_of_lt h]

/-- The number at the head of a longer byte string. -/
theorem leNat_take_leBytes {w v : Nat} (r : List UInt8) (h : v < 256 ^ w) :
    leNat ((leBytes w v ++ r).take w) = v := by
  rw [List.take_left' (length_leBytes w v), leNat_leBytes_of_lt h]

/-- Entry `k` of a table of numbers of one width. -/
theorem leNat_table_entry {w k v : Nat} (table : List Nat) (r : List UInt8)
    (hk : table[k]? = some v) (hv : v < 256 ^ w) :
    leNat (((table.flatMap (leBytes w) ++ r).drop (w * k)).take w) = v := by
  induction table generalizing k with
  | nil => simp at hk
  | cons a rest ih =>
    rw [List.flatMap_cons, List.append_assoc]
    cases k with
    | zero =>
      simp only [List.getElem?_cons_zero, Option.some.injEq] at hk
      rw [Nat.mul_zero, List.drop_zero, hk, leNat_take_leBytes _ hv]
    | succ k =>
      rw [List.getElem?_cons_succ] at hk
      rw [Nat.mul_succ, Nat.add_comm, ← List.drop_drop, List.drop_left' (length_leBytes w a),
        ih hk]

theorem leBytes_leNat (bs : List UInt8) : leBytes bs.length (leNat bs) = bs := by
  induction bs with
  | nil => rfl
  | cons b bs ih =>
    have hb : b.toNat < 256 := b.toNat_lt
    have hmod : (b.toNat + 256 * leNat bs) % 256 = b.toNat := by omega
    have hdiv : (b.toNat + 256 * leNat bs) / 256 = leNat bs := by omega
    rw [List.length_cons, leNat, leBytes, hmod, hdiv, ih, UInt8.ofNat_toNat]

/-- The bytes that a number is read from, and the bound on the number. -/
theorem leBytes_leNat_take {w : Nat} {bs : List UInt8} (h : w ≤ bs.length) :
    leBytes w (leNat (bs.take w)) = bs.take w ∧ leNat (bs.take w) < 256 ^ w := by
  have hlen : (bs.take w).length = w := List.length_take_of_le h
  have hback := leBytes_leNat (bs.take w)
  have hlt := leNat_lt (bs.take w)
  rw [hlen] at hback hlt
  exact ⟨hback, hlt⟩

end Jukeboy.Base.LittleEndian
