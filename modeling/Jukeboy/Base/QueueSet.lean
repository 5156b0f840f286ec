import Mathlib.Data.List.Count
import Mathlib.Logic.Function.Basic
import Mathlib.Tactic.Common

/-! # Queue sets

Bounded queues whose sends leave a handle in one set of handles. A select takes
the oldest handle and no message, a receive takes a message and no handle. The
surplus of a queue, its handles less its messages, says how the two have been
paired: only a select and a receive change it. -/
namespace Jukeboy.Base.QueueSet

variable {ι α : Type} [DecidableEq ι]

/-- The member queues with their messages, oldest first, and the set of handles. -/
structure Queues (ι α : Type) where
  queue : ι → List α
  handles : List ι

def empty : Queues ι α := ⟨fun _ => [], []⟩

/-- A send to the back; a full queue refuses it. -/
def send (cap : ι → Nat) (i : ι) (x : α) (s : Queues ι α) : Option (Queues ι α) :=
  if (s.queue i).length < cap i then
    some ⟨Function.update s.queue i (s.queue i ++ [x]), s.handles ++ [i]⟩
  else none

/-- A send to the front. -/
def sendToFront (cap : ι → Nat) (i : ι) (x : α) (s : Queues ι α) : Option (Queues ι α) :=
  if (s.queue i).length < cap i then
    some ⟨Function.update s.queue i (x :: s.queue i), s.handles ++ [i]⟩
  else none

/-- A receive from a member queue, whether or not it was selected. -/
def receive (i : ι) (s : Queues ι α) : Option (α × Queues ι α) :=
  match s.queue i with
  | [] => none
  | x :: rest => some (x, { s with queue := Function.update s.queue i rest })

/-- A select from the set. -/
def select (s : Queues ι α) : Option (ι × Queues ι α) :=
  match s.handles with
  | [] => none
  | i :: rest => some (i, { s with handles := rest })

/-- The handles of a queue less its messages. -/
def surplus (s : Queues ι α) (i : ι) : Int := s.handles.count i - (s.queue i).length

variable {cap : ι → Nat} {s t : Queues ι α} {i : ι} {x : α}

/-! ## What the operations do to the surplus -/

theorem length_update (f : ι → List α) (i : ι) (l : List α) (j : ι) :
    (Function.update f i l j).length = if j = i then l.length else (f j).length := by
  by_cases h : j = i
  · rw [h, Function.update_self, if_pos rfl]
  · rw [Function.update_of_ne h, if_neg h]

theorem count_append_singleton (l : List ι) (i j : ι) :
    (l ++ [i]).count j = l.count j + if j = i then 1 else 0 := by
  rw [List.count_append, List.count_singleton]
  by_cases h : j = i
  · simp [h]
  · simp [h, Ne.symm h]

/-- What a send gives, to either end. -/
structure Sent (i : ι) (s t : Queues ι α) : Prop where
  length : ∀ j, (t.queue j).length = (s.queue j).length + if j = i then 1 else 0
  handles : t.handles = s.handles ++ [i]

theorem sent_send (h : send cap i x s = some t) : Sent i s t := by
  unfold send at h
  split at h
  · cases h
    refine ⟨fun j => ?_, rfl⟩
    rw [length_update]
    split
    · next hj => rw [hj, List.length_append, List.length_singleton]
    · rfl
  · cases h

theorem sent_sendToFront (h : sendToFront cap i x s = some t) : Sent i s t := by
  unfold sendToFront at h
  split at h
  · cases h
    refine ⟨fun j => ?_, rfl⟩
    rw [length_update]
    split
    · next hj => rw [hj, List.length_cons]
    · rfl
  · cases h

theorem Sent.surplus (h : Sent i s t) (j : ι) : surplus t j = surplus s j := by
  unfold QueueSet.surplus
  rw [h.length, h.handles, count_append_singleton]
  split <;> omega

theorem Sent.handles_length (h : Sent i s t) : t.handles.length = s.handles.length + 1 := by
  rw [h.handles, List.length_append, List.length_singleton]

theorem receive_handles (h : receive i s = some (x, t)) : t.handles = s.handles := by
  unfold receive at h
  split at h
  · cases h
  · cases h
    rfl

/-- A receive leaves a handle without its message. -/
theorem receive_length (h : receive i s = some (x, t)) (j : ι) :
    (s.queue j).length = (t.queue j).length + if j = i then 1 else 0 := by
  unfold receive at h
  split at h
  · cases h
  · next x rest hqueue =>
    cases h
    rw [length_update]
    split
    · next hj => rw [hj, hqueue, List.length_cons]
    · rfl

theorem surplus_receive (h : receive i s = some (x, t)) (j : ι) :
    surplus t j = surplus s j + if j = i then 1 else 0 := by
  have hlength := receive_length h j
  unfold surplus
  rw [receive_handles h, hlength]
  split <;> omega

theorem receive_eq_none (h : receive i s = none) : (s.queue i).length = 0 := by
  unfold receive at h
  split at h
  · next hqueue => rw [hqueue, List.length_nil]
  · cases h

/-- A select leaves a message without its handle. -/
theorem surplus_select (h : select s = some (i, t)) (j : ι) :
    surplus t j = surplus s j - if j = i then 1 else 0 := by
  unfold select at h
  split at h
  · cases h
  · next k rest hhandles =>
    cases h
    unfold surplus
    rw [hhandles, List.count_cons]
    by_cases hj : j = i
    · simp only [hj, beq_self_eq_true, if_true]
      omega
    · simp only [hj, if_false, beq_iff_eq, Ne.symm hj]
      omega

omit [DecidableEq ι] in
theorem select_handles (h : select s = some (i, t)) : s.handles.length = t.handles.length + 1 := by
  unfold select at h
  split at h
  · cases h
  · next k rest hhandles =>
    cases h
    rw [hhandles, List.length_cons]

omit [DecidableEq ι] in
theorem select_queue (h : select s = some (i, t)) : t.queue = s.queue := by
  unfold select at h
  split at h
  · cases h
  · cases h
    rfl

end Jukeboy.Base.QueueSet
