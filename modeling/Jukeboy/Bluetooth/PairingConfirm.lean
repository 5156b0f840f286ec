import Jukeboy.Bluetooth.Discovery

/-! # Confirming a pairing

A remote device asks for a confirmation of a passkey; the user reads the pending one at
the console and accepts or rejects it. Requests, ends of authentication and replies go
through one queue. Every request carries here its number, and every reply the
confirmation that the console read for it. -/
namespace Jukeboy.Bluetooth.PairingConfirm

open Jukeboy.Base.Runs
open Jukeboy.Bluetooth.Discovery (BdAddr)

/-! ## The queue and the pending confirmation -/

/-- A confirmation asked for: the device, the passkey, the number of the request. -/
structure Confirm where
  remoteBda : BdAddr
  numericValue : UInt32
  request : Nat
deriving DecidableEq, Repr

inductive Msg where
  | request (confirm : Confirm)
  | reply (accept : Bool) (seen : Confirm)
  | authComplete
  | other
deriving DecidableEq, Repr

/-- `BT_SVC_QUEUE_DEPTH`. -/
def queueDepth : Nat := 24

/-- The queue, the pending confirmation, how many requests were reported, and the reply
that the console is about to send with the confirmation it read. -/
structure State where
  queue : List Msg
  pending : Option Confirm
  requests : Nat
  console : Option (Bool × Confirm)
deriving DecidableEq, Repr

def init : State where
  queue := []
  pending := none
  requests := 0
  console := none

/-- `xQueueSend`; a message that finds no room is lost. -/
def State.enqueue (s : State) (msg : Msg) : State :=
  if s.queue.length < queueDepth then { s with queue := s.queue ++ [msg] } else s

/-! ## The tasks -/

/-- The pending confirmation once a message is handled. -/
def Msg.handle : Msg → Option Confirm → Option Confirm
  | .request confirm, _ => some confirm
  | .reply _ _, _ => none
  | .authComplete, _ => none
  | .other, pending => pending

/-- The `esp_bt_gap_ssp_confirm_reply` that handling a message makes. -/
def Msg.confirmReply : Msg → Option Confirm → Option (Confirm × Bool)
  | .reply accept _, pending => pending.map (·, accept)
  | _, _ => none

inductive Op where
  | cfmReq (remoteBda : BdAddr) (numericValue : UInt32)
  | authCmpl
  | otherMsg
  | confirm (accept : Bool)
  | send
  | process
deriving DecidableEq, Repr

/-- The stack's callback, `bt_confirm_handler` up to and from its
`bluetooth_service_reply_pairing_confirm`, and `bt_svc_process_msg`. -/
def step (s : State) : Op → State × Option (Confirm × Bool)
  | .cfmReq remoteBda numericValue =>
    ({ s.enqueue (.request ⟨remoteBda, numericValue, s.requests⟩) with
        requests := s.requests + 1 }, none)
  | .authCmpl => (s.enqueue .authComplete, none)
  | .otherMsg => (s.enqueue .other, none)
  | .confirm accept =>
    match s.console with
    | none => ({ s with console := s.pending.map (accept, ·) }, none)
    | some _ => (s, none)
  | .send =>
    match s.console with
    | none => (s, none)
    | some (accept, seen) => ({ s.enqueue (.reply accept seen) with console := none }, none)
  | .process =>
    match s.queue with
    | [] => (s, none)
    | msg :: queue => ({ s with queue, pending := msg.handle s.pending }, msg.confirmReply s.pending)

def next (s : State) (op : Op) : Option State := some (step s op).1

/-! ## What a reply is for -/

/-- A confirmation is accepted through a reply of the user who saw that very one. -/
def Bound (s : State) (op : Op) : Prop :=
  ∀ confirm, (step s op).2 = some (confirm, true) → s.queue.head? = some (.reply true confirm)

/-- The pending confirmation once all of the queue is handled. -/
def pendingAfter (queue : List Msg) (pending : Option Confirm) : Option Confirm :=
  queue.foldl (fun pending msg => msg.handle pending) pending

/-- A reply goes into the queue only where nothing but the confirmation the user saw can
be pending when its turn comes. -/
def ReplyFits (s : State) : Op → Prop
  | .send => s.queue.length < queueDepth → ∀ seen, s.console = some (true, seen) →
      pendingAfter s.queue s.pending = none ∨ pendingAfter s.queue s.pending = some seen
  | _ => True

/-! ## The replies in the queue -/

variable {s : State} {pending : Option Confirm} {queue : List Msg} {msg : Msg}

/-- A reply finds what its user saw, or nothing. -/
def Fits (pending : Option Confirm) : Msg → Prop
  | .reply true seen => pending = none ∨ pending = some seen
  | _ => True

/-- All the replies of a queue fit. -/
def AllFit : Option Confirm → List Msg → Prop
  | _, [] => True
  | pending, msg :: queue => Fits pending msg ∧ AllFit (msg.handle pending) queue

theorem allFit_concat : AllFit pending (queue ++ [msg]) ↔
    AllFit pending queue ∧ Fits (pendingAfter queue pending) msg := by
  induction queue generalizing pending with
  | nil => exact and_comm.trans Iff.rfl
  | cons first queue ih =>
    rw [List.cons_append, AllFit, AllFit, ih, and_assoc]
    rfl

theorem allFit_enqueue (h : AllFit s.pending s.queue)
    (hfits : s.queue.length < queueDepth → Fits (pendingAfter s.queue s.pending) msg) :
    AllFit (s.enqueue msg).pending (s.enqueue msg).queue := by
  unfold State.enqueue
  by_cases hroom : s.queue.length < queueDepth
  · rw [if_pos hroom]
    exact allFit_concat.mpr ⟨h, hfits hroom⟩
  · rw [if_neg hroom]
    exact h

theorem step_allFit {op : Op} {t : State} (h : AllFit s.pending s.queue) (hC : ReplyFits s op)
    (hstep : next s op = some t) : AllFit t.pending t.queue := by
  rw [next, Option.some.injEq] at hstep
  subst hstep
  cases op with
  | cfmReq remoteBda numericValue => exact allFit_enqueue h fun _ => trivial
  | authCmpl => exact allFit_enqueue h fun _ => trivial
  | otherMsg => exact allFit_enqueue h fun _ => trivial
  | confirm accept =>
    simp only [step]
    split
    · exact h
    · exact h
  | send =>
    simp only [step]
    split
    · exact h
    · next accept seen hconsole =>
      refine allFit_enqueue h fun hroom => ?_
      cases accept with
      | false => exact trivial
      | true => exact hC hroom seen hconsole
  | process =>
    simp only [step]
    split
    · exact h
    · next msg queue hqueue =>
      rw [hqueue] at h
      exact h.2

theorem bound_of_allFit (h : AllFit s.pending s.queue) (op : Op) : Bound s op := by
  intro confirm hcall
  cases op with
  | process =>
    simp only [step] at hcall
    split at hcall
    · cases hcall
    · next msg queue hqueue =>
      rw [hqueue] at h
      cases msg with
      | reply accept seen =>
        simp only [Msg.confirmReply, Option.map_eq_some_iff, Prod.mk.injEq] at hcall
        obtain ⟨pending, hpending, rfl, rfl⟩ := hcall
        obtain hnone | hseen := h.1
        · rw [hpending] at hnone
          cases hnone
        · rw [hpending, Option.some.injEq] at hseen
          rw [hqueue, hseen, List.head?_cons]
      | request confirm => cases hcall
      | authComplete => cases hcall
      | other => cases hcall
  | confirm accept =>
    simp only [step] at hcall
    split at hcall
    · cases hcall
    · cases hcall
  | send =>
    simp only [step] at hcall
    split at hcall
    · cases hcall
    · cases hcall
  | cfmReq remoteBda numericValue => cases hcall
  | authCmpl => cases hcall
  | otherMsg => cases hcall

/-- **Bound to what was seen.** Where every reply is sent with nothing ahead of it in the
queue that makes another confirmation pending, only confirmations that the user saw are
accepted. -/
theorem reply_bound (ops : List Op) (h : Along next ReplyFits init ops) :
    Along next Bound init ops := by
  refine along_of_invariant (I := fun s => AllFit s.pending s.queue)
    (fun s op t hI hC hstep => step_allFit hI hC hstep) (fun s op hI _ => bound_of_allFit hI op)
    (show AllFit init.pending init.queue from trivial) h

/-! ## Runs -/

/-- A headset asks, the user reads its passkey and accepts it. -/
def answered : List Op :=
  [.cfmReq (Vector.replicate 6 1) 123456, .process, .confirm true, .send, .process]

theorem reply_bound_answered : Along next Bound init answered :=
  reply_bound answered ⟨trivial, fun _ h1 => ⟨trivial, fun _ h2 => ⟨trivial, fun _ h3 =>
    ⟨by cases h1; cases h2; cases h3; exact fun _ seen hseen => .inr (by cases hseen; rfl),
      fun _ _ => ⟨trivial, fun _ _ => trivial⟩⟩⟩⟩⟩

/-- Another device asks between the user's reading and the reply. -/
def overtaken : List Op :=
  [.cfmReq (Vector.replicate 6 1) 123456, .process, .confirm true,
    .cfmReq (Vector.replicate 6 2) 654321, .send, .process, .process]

theorem not_bound : ¬ Along next Bound init overtaken := by
  intro h
  have hlast := ((((((h.2 _ rfl).2 _ rfl).2 _ rfl).2 _ rfl).2 _ rfl).2 _ rfl).1
  have hseen := hlast ⟨Vector.replicate 6 2, 654321, 1⟩ (by decide +kernel)
  revert hseen
  decide +kernel

end Jukeboy.Bluetooth.PairingConfirm
