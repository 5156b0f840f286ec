import Mathlib.Logic.Function.Basic
import Mathlib.Tactic.Common

/-! # Requests answered through one slot

Clients put their requests into a queue of depth one. A server takes a request,
leaves its answer in the one slot there is and notifies the client, who takes the
notification and then reads the slot. Nothing in the slot says which request it
answers; it answers the right one when no client sends while a request is under
way. -/
namespace Jukeboy.Base.OneSlot

variable {ι ρ α : Type}

/-- The queue, the request the server works on, the slot, and the notifications
each client has not taken. -/
structure Mailbox (ι ρ α : Type) where
  queue : Option (ι × ρ)
  serving : Option (ι × ρ)
  slot : α
  notified : ι → Nat

/-! ## Sending and receiving -/

/-- A send; a full queue refuses it. -/
def send (who : ι) (req : ρ) (m : Mailbox ι ρ α) : Option (Mailbox ι ρ α) :=
  match m.queue with
  | some _ => none
  | none => some { m with queue := some (who, req) }

def receive (m : Mailbox ι ρ α) : Option (Mailbox ι ρ α) :=
  match m.serving, m.queue with
  | none, some req => some { m with queue := none, serving := some req }
  | _, _ => none

/-- No request is under way. -/
structure Quiet (m : Mailbox ι ρ α) : Prop where
  queue : m.queue = none
  serving : m.serving = none
  notified : ∀ who, m.notified who = 0

/-- One request is under way, and has not been answered. -/
structure Pending (who : ι) (req : ρ) (m : Mailbox ι ρ α) : Prop where
  place : m.queue = some (who, req) ∧ m.serving = none ∨
    m.queue = none ∧ m.serving = some (who, req)
  notified : ∀ who, m.notified who = 0

section

variable {m m' : Mailbox ι ρ α} {who : ι} {req : ρ}

theorem Quiet.send (hm : Quiet m) (h : OneSlot.send who req m = some m') :
    Pending who req m' ∧ m'.slot = m.slot := by
  rw [OneSlot.send, hm.queue] at h
  cases h
  exact ⟨⟨.inl ⟨rfl, hm.serving⟩, hm.notified⟩, rfl⟩

theorem Quiet.receive (hm : Quiet m) : OneSlot.receive m = none := by
  rw [OneSlot.receive, hm.queue, hm.serving]

theorem Pending.receive (hm : Pending who req m) (h : OneSlot.receive m = some m') :
    Pending who req m' := by
  obtain ⟨⟨hqueue, hserving⟩ | ⟨hqueue, hserving⟩, hnotified⟩ := hm
  · rw [OneSlot.receive, hqueue, hserving] at h
    cases h
    exact ⟨.inr ⟨rfl, rfl⟩, hnotified⟩
  · rw [OneSlot.receive, hqueue, hserving] at h
    cases h

end

/-! ## Answers -/

variable [DecidableEq ι] {m m' : Mailbox ι ρ α} {who : ι} {req : ρ} {answer : α}

def reply (answer : α) (m : Mailbox ι ρ α) : Option (Mailbox ι ρ α) :=
  match m.serving with
  | none => none
  | some (who, _) =>
    some { m with
      serving := none
      slot := answer
      notified := Function.update m.notified who (m.notified who + 1) }

/-- A client takes its notifications, or clears them. -/
def take (who : ι) (m : Mailbox ι ρ α) : Mailbox ι ρ α :=
  { m with notified := Function.update m.notified who 0 }

/-- The one request under way has been answered, and its client notified. -/
structure Answered (who : ι) (m : Mailbox ι ρ α) : Prop where
  queue : m.queue = none
  serving : m.serving = none
  notified : m.notified = Function.update (fun _ => 0) who 1

theorem Quiet.reply (hm : Quiet m) : OneSlot.reply answer m = none := by
  rw [OneSlot.reply, hm.serving]

theorem Quiet.take (hm : Quiet m) : Quiet (OneSlot.take who m) := by
  refine ⟨hm.queue, hm.serving, fun w => ?_⟩
  by_cases hw : w = who
  · rw [hw]
    exact Function.update_self ..
  · exact (Function.update_of_ne hw ..).trans (hm.notified w)

/-- **A reply is the answer to the request under way.** -/
theorem Pending.reply (hm : Pending who req m) (h : OneSlot.reply answer m = some m') :
    m.serving = some (who, req) ∧ Answered who m' ∧ m'.slot = answer := by
  obtain ⟨⟨-, hserving⟩ | ⟨hqueue, hserving⟩, hnotified⟩ := hm
  · rw [OneSlot.reply, hserving] at h
    cases h
  · rw [OneSlot.reply, hserving] at h
    cases h
    refine ⟨hserving, ⟨hqueue, rfl, ?_⟩, rfl⟩
    have hnone : m.notified = fun _ => 0 := funext hnotified
    change Function.update m.notified who (m.notified who + 1) = _
    rw [hnone]

theorem Answered.receive (hm : Answered who m) : OneSlot.receive m = none := by
  rw [OneSlot.receive, hm.queue, hm.serving]

theorem Answered.reply (hm : Answered who m) : OneSlot.reply answer m = none := by
  rw [OneSlot.reply, hm.serving]

/-- The client that takes its notification leaves nothing under way. -/
theorem Answered.take (hm : Answered who m) : Quiet (OneSlot.take who m) := by
  refine ⟨hm.queue, hm.serving, fun w => ?_⟩
  change Function.update m.notified who 0 w = 0
  rw [hm.notified, Function.update_idem]
  by_cases hw : w = who
  · rw [hw, Function.update_self]
  · rw [Function.update_of_ne hw]

end Jukeboy.Base.OneSlot
