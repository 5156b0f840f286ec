import Mathlib.Algebra.GroupWithZero.Nat
import Mathlib.Data.List.Basic
import Mathlib.Tactic.Common

/-! # Lacing

A packet is cut into segments of a fixed length and a shorter one that ends it, be it
empty. The lengths of the segments, one behind the other, tell the packets of a string of
bytes; a reader can stop anywhere between two segments and go on from there. -/
namespace Jukeboy.Base.Lacing

variable {α : Type} {limit : Nat}

/-- The lacing values of a packet of length `n`. -/
def lace (limit n : Nat) : List Nat := List.replicate (n / limit) limit ++ [n % limit]

/-- The packets that end among some segments, and the segments behind the last end. -/
def unlace (limit : Nat) : List Nat → List α → List (List α) → List (List α) × List (List α)
  | [], _, parts => ([], parts)
  | value :: values, data, parts =>
    let parts := parts ++ [data.take value]
    if value < limit then
      let (packets, rest) := unlace limit values (data.drop value) []
      (parts.flatten :: packets, rest)
    else unlace limit values (data.drop value) parts

variable {values more : List Nat} {data data' : List α} {parts : List (List α)}

@[simp] theorem unlace_nil (data : List α) (parts : List (List α)) :
    unlace limit [] data parts = ([], parts) := rfl

theorem unlace_cons_lt {value : Nat} (h : value < limit) :
    unlace limit (value :: values) data parts =
      ((parts ++ [data.take value]).flatten :: (unlace limit values (data.drop value) []).1,
        (unlace limit values (data.drop value) []).2) := if_pos h

theorem unlace_cons_ge {value : Nat} (h : ¬ value < limit) :
    unlace limit (value :: values) data parts =
      unlace limit values (data.drop value) (parts ++ [data.take value]) := if_neg h

/-- Reading on from where a reader has stopped. -/
theorem unlace_append (hlen : data.length = values.sum) :
    unlace limit (values ++ more) (data ++ data') parts =
      ((unlace limit values data parts).1 ++
          (unlace limit more data' (unlace limit values data parts).2).1,
        (unlace limit more data' (unlace limit values data parts).2).2) := by
  induction values generalizing data parts with
  | nil =>
    obtain rfl := List.length_eq_zero_iff.mp hlen
    rfl
  | cons value values ih =>
    rw [List.sum_cons] at hlen
    have hle : value ≤ data.length := by omega
    have hrest : (data.drop value).length = values.sum := by
      rw [List.length_drop]
      omega
    by_cases hend : value < limit
    · rw [List.cons_append, unlace_cons_lt hend, unlace_cons_lt hend,
        List.take_append_of_le_length hle, List.drop_append_of_le_length hle, ih hrest]
      rfl
    · rw [List.cons_append, unlace_cons_ge hend, unlace_cons_ge hend,
        List.take_append_of_le_length hle, List.drop_append_of_le_length hle, ih hrest]

theorem unlace_replicate (values : List Nat) (data : List α) (parts : List (List α)) (count : Nat)
    (hlen : count * limit ≤ data.length) :
    ∃ full, unlace limit (List.replicate count limit ++ values) data parts =
        unlace limit values (data.drop (count * limit)) (parts ++ full) ∧
      full.flatten = data.take (count * limit) := by
  induction count generalizing data parts with
  | zero => exact ⟨[], by simp, by simp⟩
  | succ count ih =>
    rw [Nat.succ_mul] at hlen
    obtain ⟨full, heq, hfull⟩ := ih (data.drop limit) (parts ++ [data.take limit])
      (by rw [List.length_drop]; omega)
    refine ⟨data.take limit :: full, ?_, ?_⟩
    · rw [List.replicate_succ, List.cons_append, unlace_cons_ge (Nat.lt_irrefl _), heq,
        List.drop_drop, Nat.succ_mul, Nat.add_comm limit, List.append_assoc]
      rfl
    · rw [List.flatten_cons, hfull, Nat.succ_mul, Nat.add_comm (count * limit), List.take_add]

/-- One packet in front of anything. -/
theorem unlace_lace (hpos : 0 < limit) (packet : List α) :
    unlace limit (lace limit packet.length ++ values) (packet ++ data) parts =
      ((parts.flatten ++ packet) :: (unlace limit values data []).1,
        (unlace limit values data []).2) := by
  have hdiv : packet.length / limit * limit + packet.length % limit = packet.length := by
    rw [Nat.mul_comm]
    exact Nat.div_add_mod ..
  have hle : packet.length / limit * limit ≤ packet.length := Nat.div_mul_le_self ..
  have hfits : packet.length / limit * limit ≤ (packet ++ data).length := by
    rw [List.length_append]
    exact Nat.le_add_right_of_le hle
  obtain ⟨full, heq, hfull⟩ :=
    unlace_replicate ([packet.length % limit] ++ values) (packet ++ data) parts _ hfits
  rw [List.take_append_of_le_length hle] at hfull
  have htail : (packet.drop (packet.length / limit * limit)).length = packet.length % limit := by
    rw [List.length_drop]
    omega
  rw [lace, List.append_assoc, heq, List.drop_append_of_le_length hle, List.singleton_append,
    unlace_cons_lt (Nat.mod_lt _ hpos), List.take_left' htail, List.drop_left' htail]
  simp [hfull]

/-- **Round trip**: the packets that were laced are the ones that are read. -/
theorem unlace_packets (hpos : 0 < limit) (packets : List (List α)) :
    unlace limit (packets.flatMap fun p => lace limit p.length) packets.flatten [] =
      (packets, []) := by
  induction packets with
  | nil => rfl
  | cons packet packets ih =>
    rw [List.flatMap_cons, List.flatten_cons, unlace_lace hpos, ih]
    rfl

/-- Nothing is left over when the last segment ends a packet. -/
theorem unlace_rest_eq_nil_iff :
    (unlace limit values data parts).2 = [] ↔
      match values.getLast? with
      | none => parts = []
      | some value => value < limit := by
  induction values generalizing data parts with
  | nil => rfl
  | cons value values ih =>
    by_cases hend : value < limit
    · rw [unlace_cons_lt hend, ih]
      cases values with
      | nil => exact iff_of_true rfl hend
      | cons => rfl
    · rw [unlace_cons_ge hend, ih]
      cases values with
      | nil => exact iff_of_false (by simp) hend
      | cons => rfl

end Jukeboy.Base.Lacing
