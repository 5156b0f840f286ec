import Jukeboy.CompanionApi.Revocation

/-! # Pairing by buttons

A client is trusted once the buttons it asked for are pressed in a row and in time, or
the console confirms its pairing. The task is watched: what the latest accepted
PAIR_BEGIN asked for, and the button messages since. -/
namespace Jukeboy.CompanionApi.PairingSequence

open Jukeboy.Base Jukeboy.Base.Runs Jukeboy.CompanionApi.Tlv Jukeboy.CompanionApi.Protocol
open Jukeboy.CompanionApi.RequestHandlers Jukeboy.CompanionApi.ServiceHandlers
open Jukeboy.CompanionApi.Task Jukeboy.CompanionApi.TrustedStore
open Jukeboy.CompanionApi.RxBuffer (Request RxEvent handleRxChunk)
open Jukeboy.CompanionApi.Revocation (eraseKey_cases eraseAll_each afterStore_session)

/-! ## What is asked for and pressed -/

/-- The sequence a PAIR_BEGIN asks for, if it is accepted. -/
def requested (r : Request) : Option (List UInt8) :=
  match tlvString r.payload .clientId (clientIdMaxLen + 1),
    tlvString r.payload .appName (appNameMaxLen + 1), findTlv r.payload .sharedSecret,
    findTlv r.payload .buttonSequence with
  | some clientId, some _, some secret, some sequence =>
    if secret.length ≠ secretLen ∨ sequence.length ≠ pairingSequenceLen ∨ clientId = [] then none
    else if sequence.any (· ≥ hidButtonCount) then none
    else some sequence
  | _, _, _, _ => none

/-- The sequence of the latest PAIR_BEGIN with its deadline, and the button messages
since. -/
structure Watch where
  begun : Option (List UInt8 × UInt32)
  presses : List UInt8
deriving DecidableEq, Repr

def Watch.request (now : UInt32) (r : Request) (w : Watch) : Watch :=
  if Opcode.ofCode r.opcode = some .pairBegin then
    match requested r with
    | none => w
    | some sequence => ⟨some (sequence, now + pairingTimeoutTicks), []⟩
  else w

def Watch.events (env : Nat → World) : Nat → List RxEvent → Watch → Watch
  | _, [], w => w
  | k, .request r :: events, w => Watch.events env (k + 1) events (w.request (env k).inputs.now r)
  | k, _ :: events, w => Watch.events env (k + 1) events w

def Watch.turn (s : State) (t : Turn) (w : Watch) : Watch :=
  match t.action with
  | .message (.rxChunk _ bytes) => w.events t.env 0 (handleRxChunk s.rxBuffer bytes).1
  | .message (.hidButton button) => { w with presses := w.presses ++ [button] }
  | _ => w

/-- The task with what was watched of it. -/
structure System where
  task : State
  watch : Watch

def next (hmac : Hmac) (s : System) (t : Turn) : Option System :=
  (step hmac s.task t).map fun task => ⟨task, s.watch.turn s.task t⟩

def init (store : Store) (count : UInt8) (now : UInt32) : System :=
  ⟨initState store count now, ⟨none, []⟩⟩

/-! ## What the pairing is for -/

/-- The last of the buttons pressed in a row is the message of this turn, in time. -/
def ByButtons (w : Watch) (t : Turn) : Prop :=
  ∃ button sequence deadline, t.action = .message (.hidButton button) ∧
    w.begun = some (sequence, deadline) ∧ sequence.length = 4 ∧
    sequence <:+ w.presses ++ [button] ∧ (t.env 0).inputs.now ≤ deadline

/-- The console confirms the pairing that is pending. -/
def ByConsole (s : State) (t : Turn) : Prop :=
  t.action = .message .consoleConfirmPairing ∧ s.session.pairing.pending = true

/-- A turn creates or replaces a record for a good reason only, and leaves a pending
pairing open. -/
structure Sound (hmac : Hmac) (s : System) (t : Turn) : Prop where
  stored : ∀ task, step hmac s.task t = some task → ∀ slot record,
    task.session.store slot = some record → s.task.session.store slot ≠ some record →
      ByButtons s.watch t ∨ ByConsole s.task t
  open_ : ∀ task, step hmac s.task t = some task →
    task.session.pairing.pending = true → task.session.pairing.progress < 4

/-- The record of the pending pairing can be stored. -/
def Stores (inp : Inputs) (s : Session) : Prop :=
  s.pairing.clientId ≠ [] ∧ (slotForRecord inp.nvs s.store s.pairing.clientId).isSome = true ∧
    inp.nvs.openWrite = .ok ∧ inp.nvs.setBlob = .ok ∧ inp.nvs.commit = .ok

instance (inp : Inputs) (s : Session) : Decidable (Stores inp s) :=
  inferInstanceAs (Decidable (_ ∧ _))

/-- A button that is the last of the sequence and in time comes when the record can be
stored. -/
def Condition (s : System) (t : Turn) : Prop :=
  match t.action with
  | .message (.hidButton button) =>
    let p := s.task.session.pairing
    p.pending = true → p.progress = 3 → (t.env 0).inputs.now ≤ p.deadline →
      button = p.sequence.getD 3 0 → Stores (t.env 0).inputs s.task.session
  | _ => True

/-! ## What the invariant says -/

variable {hmac : Hmac} {s : Session} {w : Watch} {p : Pairing} {store store' : Store}

/-- A pending pairing is the latest one asked for, and its progress is what was pressed. -/
def Follows (w : Watch) (p : Pairing) : Prop :=
  p.pending = true → p.progress < 4 ∧ w.begun = some (p.sequence, p.deadline) ∧
    p.sequence.length = 4 ∧ p.sequence.take p.progress.toNat <:+ w.presses

theorem follows_clear (w : Watch) : Follows w {} := by
  intro h
  cases h

/-- No record is created or replaced. -/
def Erases (store store' : Store) : Prop :=
  ∀ slot, store' slot = store slot ∨ store' slot = none

theorem Erases.refl (store : Store) : Erases store store := fun _ => .inl rfl

theorem Erases.trans {store'' : Store} (h : Erases store store') (h' : Erases store' store'') :
    Erases store store'' := by
  intro slot
  obtain heq | hnone := h' slot
  · rw [heq]
    exact h slot
  · exact .inr hnone

theorem Erases.not_new (h : Erases store store') {slot : Fin maxTrustedClients} {record : Record}
    (hnew : store' slot = some record) : store slot = some record := by
  obtain heq | hnone := h slot
  · rw [← heq, hnew]
  · rw [hnone] at hnew
    cases hnew

/-! ## The requests -/

theorem revokeClient_erases (nvs : Nvs) (store : Store) (clientId : Bytes) :
    Erases store (revokeClient nvs store clientId).store := by
  unfold revokeClient
  split
  · exact .refl store
  · next slot record _ =>
    split
    · exact .refl store
    · obtain ⟨err, -, heq⟩ | ⟨-, err, -, heq⟩ := eraseKey_cases nvs store slot
      · rw [heq]
        exact .refl store
      · rw [heq]
        intro i
        by_cases hi : i = slot
        · exact .inr (by rw [hi]; exact Function.update_self ..)
        · exact .inl (Function.update_of_ne hi ..)

theorem revokeAll_erases (nvs : Nvs) (store : Store) :
    Erases store (revokeAll nvs store).store := by
  unfold revokeAll
  split
  · exact .refl store
  · cases h : eraseAll nvs (List.finRange maxTrustedClients) store with
    | mk store' err => exact (eraseAll_each nvs _ h).1

theorem afterStore_pairing (s : Session) (nvs : Nvs) (r : StoreResult) :
    (s.afterStore nvs r).pairing = s.pairing := by
  unfold Session.afterStore
  split
  · rfl
  · rfl

theorem revokeClientInternal_keeps (inp : Inputs) (clientId : Bytes) (s : Session) :
    Erases s.store (revokeClientInternal inp clientId s).session.store ∧
      (revokeClientInternal inp clientId s).session.pairing = s.pairing := by
  unfold revokeClientInternal
  dsimp only
  rw [(afterStore_session ..).1, afterStore_pairing]
  refine ⟨revokeClient_erases _ _ _, ?_⟩
  split
  · rfl
  · rfl

theorem revokeAllInternal_keeps (inp : Inputs) (s : Session) :
    Erases s.store (revokeAllInternal inp s).session.store ∧
      (revokeAllInternal inp s).session.pairing = s.pairing := by
  unfold revokeAllInternal
  dsimp only
  rw [(afterStore_session ..).1, afterStore_pairing]
  refine ⟨revokeAll_erases _ _, ?_⟩
  split
  · rfl
  · rfl

/-- A PAIR_BEGIN is refused, or the pairing is the one it asks for. -/
theorem handlePairBegin_cases (inp : Inputs) (link : Nat) (r : Request) (s : Session) :
    (requested r = none ∧ (handlePairBegin inp link r s).session = s) ∨
      ∃ sequence p, requested r = some sequence ∧
        (handlePairBegin inp link r s).session = { s with pairing := p } ∧
        sequence.length = 4 ∧ p.progress = 0 ∧ p.sequence = sequence ∧
        p.deadline = inp.now + pairingTimeoutTicks := by
  cases hid : tlvString r.payload .clientId (clientIdMaxLen + 1) with
  | none => exact .inl ⟨by simp only [requested, hid], by simp only [handlePairBegin, hid]; rfl⟩
  | some clientId =>
  cases happ : tlvString r.payload .appName (appNameMaxLen + 1) with
  | none =>
    exact .inl ⟨by simp only [requested, hid, happ], by simp only [handlePairBegin, hid, happ]; rfl⟩
  | some appName =>
  cases hsecret : findTlv r.payload .sharedSecret with
  | none =>
    exact .inl ⟨by simp only [requested, hid, happ, hsecret],
      by simp only [handlePairBegin, hid, happ, hsecret]; rfl⟩
  | some secret =>
  cases hsequence : findTlv r.payload .buttonSequence with
  | none =>
    exact .inl ⟨by simp only [requested, hid, happ, hsecret, hsequence],
      by simp only [handlePairBegin, hid, happ, hsecret, hsequence]; rfl⟩
  | some sequence =>
    simp only [requested, handlePairBegin, hid, happ, hsecret, hsequence]
    split
    · exact .inl ⟨rfl, rfl⟩
    · next hlen =>
      rw [not_or, not_or, not_not, not_not] at hlen
      split
      · exact .inl ⟨rfl, rfl⟩
      · exact .inr ⟨sequence, _, rfl, rfl, hlen.2.1, rfl, rfl, rfl⟩

/-- The sequence of a request that is an accepted PAIR_BEGIN. -/
def begins (r : Request) : Option (List UInt8) :=
  if Opcode.ofCode r.opcode = some .pairBegin then requested r else none

theorem Watch.request_eq (now : UInt32) (r : Request) (w : Watch) : w.request now r =
    match begins r with
    | none => w
    | some sequence => ⟨some (sequence, now + pairingTimeoutTicks), []⟩ := by
  unfold Watch.request begins
  split
  · rfl
  · rfl

/-- What a request does to the pairing: only an accepted PAIR_BEGIN makes a new one. -/
inductive Repairs (now : UInt32) (r : Request) (p : Pairing) : Pairing → Prop
  | kept (hnone : begins r = none) : Repairs now r p p
  | cleared (hnone : begins r = none) : Repairs now r p {}
  | begun (p' : Pairing) (sequence : List UInt8) (hsome : begins r = some sequence)
      (hfour : sequence.length = 4) (hprogress : p'.progress = 0)
      (hsequence : p'.sequence = sequence) (hdeadline : p'.deadline = now + pairingTimeoutTicks) :
      Repairs now r p p'

/-- What a request does to the store and the pairing. -/
structure Changes (now : UInt32) (r : Request) (s s' : Session) : Prop where
  erases : Erases s.store s'.store
  repairs : Repairs now r s.pairing s'.pairing

theorem Changes.same {now : UInt32} {r : Request} {s' : Session}
    (hop : Opcode.ofCode r.opcode ≠ some .pairBegin) (herases : Erases s.store s'.store)
    (hpairing : s'.pairing = s.pairing ∨ s'.pairing = {}) : Changes now r s s' where
  erases := herases
  repairs := by
    have hnone : begins r = none := if_neg hop
    obtain hsame | hclear := hpairing
    · exact hsame ▸ .kept hnone
    · exact hclear ▸ .cleared hnone

theorem handlePairBegin_changes {inp : Inputs} {link : Nat} {r : Request}
    (hop : Opcode.ofCode r.opcode = some .pairBegin) :
    Changes inp.now r s (handlePairBegin inp link r s).session := by
  have hbegins : begins r = requested r := if_pos hop
  obtain ⟨hnone, hs⟩ | ⟨sequence, p, hsome, hs, hfour, hprogress, hsequence, hdeadline⟩ :=
    handlePairBegin_cases inp link r s
  · rw [hs]
    exact ⟨.refl _, .kept (hbegins.trans hnone)⟩
  · rw [hs]
    exact ⟨.refl _, .begun p sequence (hbegins.trans hsome) hfour hprogress hsequence hdeadline⟩

theorem dispatch_changes (hmac : Hmac) (wd : World) (link : Nat) (r : Request) (s : Session) :
    Changes wd.inputs.now r s (dispatch hmac wd link r s).session := by
  unfold dispatch
  split
  · next hop => exact .same (by rw [hop]; intro h; cases h) (.refl _) (.inl rfl)
  · next hop => exact .same (by rw [hop]; intro h; cases h) (.refl _) (.inl rfl)
  · next hop =>
    unfold handlePing
    split
    · exact .same (by rw [hop]; intro h; cases h) (.refl _) (.inl rfl)
    · exact .same (by rw [hop]; intro h; cases h) (.refl _) (.inl rfl)
  · next hop => exact handlePairBegin_changes hop
  · next hop => exact .same (by rw [hop]; intro h; cases h) (.refl _) (.inl rfl)
  · next hop => exact .same (by rw [hop]; intro h; cases h) (.refl _) (.inr rfl)
  · next hop =>
    unfold handleAuthChallenge
    dsimp only
    split
    · exact .same (by rw [hop]; intro h; cases h) (.refl _) (.inl rfl)
    · split
      · exact .same (by rw [hop]; intro h; cases h) (.refl _) (.inl rfl)
      · exact .same (by rw [hop]; intro h; cases h) (.refl _) (.inl rfl)
  · next hop =>
    unfold handleAuthProof
    dsimp only
    split
    · split
      · exact .same (by rw [hop]; intro h; cases h) (.refl _) (.inl rfl)
      · split
        · exact .same (by rw [hop]; intro h; cases h) (.refl _) (.inl rfl)
        · split
          · exact .same (by rw [hop]; intro h; cases h) (.refl _) (.inl rfl)
          · exact .same (by rw [hop]; intro h; cases h) (.refl _) (.inl rfl)
    · exact .same (by rw [hop]; intro h; cases h) (.refl _) (.inl rfl)
  · next hop => exact .same (by rw [hop]; intro h; cases h) (.refl _) (.inl rfl)
  · next hop =>
    unfold handleTrustedRevoke
    split
    · exact .same (by rw [hop]; intro h; cases h) (.refl _) (.inl rfl)
    · next clientId _ =>
      obtain ⟨herases, hpairing⟩ := revokeClientInternal_keeps wd.inputs clientId s
      dsimp only
      split
      · exact .same (by rw [hop]; intro h; cases h) herases (.inl hpairing)
      · exact .same (by rw [hop]; intro h; cases h) herases (.inl hpairing)
  · next hother _ _ _ _ _ _ hop =>
    refine .same ?_ (.refl _) (.inl rfl)
    rw [hop]
    exact fun hbegin => hother (Option.some.inj hbegin)
  · next hop => exact .same (by rw [hop]; intro h; cases h) (.refl _) (.inl rfl)

theorem handleRequest_changes (hmac : Hmac) (wd : World) (link : Nat) (r : Request)
    (s : Session) : Changes wd.inputs.now r s (handleRequest hmac wd link r s).session := by
  unfold handleRequest
  split
  · next hauth =>
    -- no authentication is asked for before a PAIR_BEGIN
    refine .same (fun hop => ?_) (.refl _) (.inl rfl)
    have hrequires := hauth.1
    rw [opcodeRequiresAuth, hop] at hrequires
    cases hrequires
  · exact dispatch_changes hmac wd link r s

/-- The same of the pairing that is watched. -/
structure Keeps (now : UInt32) (r : Request) (w : Watch) (s s' : Session) : Prop where
  erases : Erases s.store s'.store
  follows : Follows w s.pairing → Follows (w.request now r) s'.pairing

theorem Changes.keeps {now : UInt32} {r : Request} {s' : Session} (h : Changes now r s s')
    (w : Watch) : Keeps now r w s s' where
  erases := h.erases
  follows hw := by
    have hrepairs := h.repairs
    rw [Watch.request_eq]
    generalize s'.pairing = p at hrepairs ⊢
    cases hrepairs with
    | kept hnone => rw [hnone]; exact hw
    | cleared hnone => rw [hnone]; exact follows_clear w
    | begun _ sequence hsome hfour hprogress hsequence hdeadline =>
      rw [hsome]
      intro _
      rw [hprogress, hsequence, hdeadline]
      exact ⟨by decide, rfl, hfour, List.nil_suffix⟩

theorem handleRequest_keeps (hmac : Hmac) (wd : World) (link : Nat) (r : Request) (w : Watch)
    (s : Session) : Keeps wd.inputs.now r w s (handleRequest hmac wd link r s).session :=
  (handleRequest_changes hmac wd link r s).keeps w

/-! ## The turns -/

/-- The requests of a chunk, one after the other. -/
theorem rxEvents_keeps (hmac : Hmac) (env : Nat → World) (link : Nat) (events : List RxEvent)
    (k : Nat) {s : State} (h : Follows w s.session.pairing) :
    Erases s.session.store (applyRxEvents hmac env link k events s).session.store ∧
      Follows (w.events env k events) (applyRxEvents hmac env link k events s).session.pairing := by
  induction events generalizing k s w with
  | nil => exact ⟨.refl _, h⟩
  | cons event events ih =>
    cases event with
    | overflow =>
      have hsession : (applyRxEvent hmac (env k) link .overflow s).session = s.session :=
        finish_session ..
      rw [applyRxEvents, ← hsession]
      exact ih (k + 1) (hsession ▸ h)
    | resync => exact ih (k + 1) (s := countRxError s) h
    | sendError opcode requestId e =>
      have hsession : (applyRxEvent hmac (env k) link (.sendError opcode requestId e) s).session =
          s.session := finish_session ..
      rw [applyRxEvents, ← hsession]
      exact ih (k + 1) (hsession ▸ h)
    | request r =>
      have hsession : (applyRxEvent hmac (env k) link (.request r) s).session =
          (handleRequest hmac (env k) link r s.session).session := finish_session ..
      have hkeeps := handleRequest_keeps hmac (env k) link r w s.session
      rw [← hsession] at hkeeps
      obtain ⟨herases, hfollows⟩ := ih (k + 1) (hkeeps.follows h)
      exact ⟨hkeeps.erases.trans herases, hfollows⟩

theorem storeRecord_ok {inp : Inputs} (p : Pairing) :
    (storeRecord inp.nvs s.store inp.time p.clientId p.appName p.secret).err = .ok ↔
      Stores inp { s with pairing := p } := by
  unfold storeRecord Stores
  by_cases hid : p.clientId = []
  · rw [if_pos hid]
    exact ⟨fun h => (by cases h), fun h => absurd hid h.1⟩
  rw [if_neg hid]
  cases hslot : slotForRecord inp.nvs s.store p.clientId with
  | none => exact ⟨fun h => (by cases h), fun h => absurd h.2.1 Bool.false_ne_true⟩
  | some slot =>
    dsimp only
    by_cases hopen : inp.nvs.openWrite = .ok
    · rw [if_neg (not_not.mpr hopen)]
      by_cases hset : inp.nvs.setBlob = .ok
      · rw [if_neg (not_not.mpr hset)]
        exact ⟨fun h => ⟨hid, rfl, hopen, hset, h⟩, fun h => h.2.2.2.2⟩
      · rw [if_pos hset]
        exact ⟨fun h => absurd h hset, fun h => absurd h.2.2.2.1 hset⟩
    · rw [if_pos hopen]
      exact ⟨fun h => absurd h hopen, fun h => absurd h.2.2.1 hopen⟩

/-- A pairing that is completed is cleared, one that cannot be stored stays. -/
theorem completePairing_pairing (inp : Inputs) (s : Session) (hpending : s.pairing.pending = true) :
    (completePairing inp s).session.pairing = if Stores inp s then {} else s.pairing := by
  unfold completePairing
  rw [if_neg (not_not.mpr hpending)]
  dsimp only
  by_cases hstores : Stores inp s
  · have hok := (storeRecord_ok (s := s) s.pairing).mpr hstores
    rw [if_neg (not_not.mpr hok), if_pos hstores]
    rfl
  · have hfails : (storeRecord inp.nvs s.store inp.time s.pairing.clientId s.pairing.appName
        s.pairing.secret).err ≠ .ok := fun hok => hstores ((storeRecord_ok (s := s) s.pairing).mp hok)
    rw [if_pos hfails, if_neg hstores]
    exact afterStore_pairing ..

/-- The button is the last of the sequence, in time. -/
def Completes (inp : Inputs) (button : UInt8) (p : Pairing) : Prop :=
  p.pending = true ∧ p.progress = 3 ∧ inp.now ≤ p.deadline ∧ button = p.sequence.getD 3 0

/-- What a button does to a pairing that it does not complete. -/
inductive Presses (button : UInt8) (p : Pairing) : Pairing → Prop
  | idle (h : ¬ (p.pending = true ∧ p.progress < 4)) : Presses button p p
  | late : Presses button p {}
  | missed : Presses button p { p with progress := 0 }
  | hit (hlt : p.progress < 3) (hbutton : button = p.sequence.getD p.progress.toNat 0) :
      Presses button p { p with progress := p.progress + 1 }

theorem lt_four_iff {progress : UInt8} : progress < 4 ↔ ¬ progress ≥ 4 := by
  rw [ge_iff_le, UInt8.not_le]

theorem lt_three_of_not_last {progress : UInt8} (h : progress < 4) (h' : ¬ progress + 1 ≥ 4) :
    progress < 3 := by
  rw [UInt8.lt_iff_toNat_lt] at h ⊢
  rw [ge_iff_le, UInt8.le_iff_toNat_le, UInt8.toNat_add] at h'
  simp only [UInt8.reduceToNat] at h h' ⊢
  omega

/-- What a button does. -/
theorem applyPairingButton_cases (inp : Inputs) (button : UInt8) (s : Session) :
    (Completes inp button s.pairing ∧ (applyPairingButton inp button s).session =
      (completePairing inp { s with pairing := { s.pairing with progress := 4 } }).session) ∨
    (¬ Completes inp button s.pairing ∧
      (applyPairingButton inp button s).session.store = s.store ∧
      Presses button s.pairing (applyPairingButton inp button s).session.pairing) := by
  unfold applyPairingButton
  dsimp only
  by_cases hready : ¬ s.pairing.pending = true ∨ s.pairing.progress ≥ 4
  · rw [if_pos hready]
    refine .inr ⟨fun h => ?_, rfl, .idle fun h => ?_⟩
    · refine hready.elim (fun hidle => hidle h.1) fun hfull => ?_
      rw [h.2.1] at hfull
      exact absurd hfull (by decide)
    · exact hready.elim (fun hidle => hidle h.1) fun hfull => lt_four_iff.mp h.2 hfull
  rw [if_neg hready]
  obtain ⟨hpending, hprogress⟩ := not_or.mp hready
  rw [not_not] at hpending
  by_cases hlate : inp.now > s.pairing.deadline
  · rw [if_pos hlate]
    exact .inr ⟨fun h => UInt32.not_le.mpr hlate h.2.2.1, rfl, .late⟩
  rw [if_neg hlate]
  by_cases hbutton : button = s.pairing.sequence.getD s.pairing.progress.toNat 0
  · rw [if_neg (not_not.mpr hbutton)]
    by_cases hlast : s.pairing.progress + 1 ≥ 4
    · have hthree := Authorisation.eq_three_of_last hprogress hlast
      have hfour : s.pairing.progress + 1 = 4 := by
        rw [hthree]
        rfl
      rw [hthree] at hbutton
      rw [if_pos hlast, hfour]
      exact .inl ⟨⟨hpending, hthree, UInt32.not_lt.mp hlate, hbutton⟩, rfl⟩
    · rw [if_neg hlast]
      have hthree := lt_three_of_not_last (lt_four_iff.mpr hprogress) hlast
      refine .inr ⟨fun h => ?_, rfl, .hit hthree hbutton⟩
      rw [h.2.1] at hthree
      exact absurd hthree (by decide)
  · rw [if_pos hbutton]
    refine .inr ⟨fun h => hbutton ?_, rfl, .missed⟩
    rw [h.2.1]
    exact h.2.2.2

/-- A button that does not complete the pairing. -/
theorem Presses.follows {button : UInt8} {p' : Pairing} (hp : Presses button p p')
    (h : Follows w p) : Follows { w with presses := w.presses ++ [button] } p' := by
  intro hpending
  cases hp with
  | idle hidle => exact absurd ⟨hpending, (h hpending).1⟩ hidle
  | late => cases hpending
  | missed =>
    obtain ⟨-, hbegun, hfour, -⟩ := h hpending
    exact ⟨by show (0 : UInt8) < 4; decide, hbegun, hfour, List.nil_suffix⟩
  | hit hlt hbutton =>
    obtain ⟨-, hbegun, hfour, before, hsuffix⟩ := h hpending
    have hnat : p.progress.toNat < 3 := UInt8.lt_iff_toNat_lt.mp hlt
    have hnext : (p.progress + 1).toNat = p.progress.toNat + 1 := by
      rw [UInt8.toNat_add]
      simp only [UInt8.reduceToNat]
      omega
    refine ⟨?_, hbegun, hfour, before, ?_⟩
    · rw [UInt8.lt_iff_toNat_lt, hnext]
      simp only [UInt8.reduceToNat]
      omega
    · have hin : p.progress.toNat < p.sequence.length := by omega
      show before ++ p.sequence.take (p.progress + 1).toNat = w.presses ++ [button]
      rw [hnext, List.take_add_one, List.getElem?_eq_getElem hin, Option.toList_some,
        ← List.append_assoc, hsuffix, hbutton, List.getD_eq_getElem?_getD, List.getElem?_eq_getElem hin, Option.getD_some]

/-- The button that completes a pairing is the last of its sequence. -/
theorem Completes.presses {inp : Inputs} {button : UInt8} (hcompletes : Completes inp button p)
    (h : Follows w p) : p.sequence <:+ w.presses ++ [button] := by
  obtain ⟨hpending, hthree, -, hbutton⟩ := hcompletes
  obtain ⟨-, -, hfour, before, hsuffix⟩ := h hpending
  refine ⟨before, ?_⟩
  have hin : 3 < p.sequence.length := by omega
  have hall : p.sequence = p.sequence.take 3 ++ [button] := by
    rw [hbutton, List.getD_eq_getElem?_getD, List.getElem?_eq_getElem hin, Option.getD_some]
    conv_lhs => rw [← List.take_length (l := p.sequence), hfour, List.take_add_one,
      List.getElem?_eq_getElem hin, Option.toList_some]
  rw [hthree] at hsuffix
  have hnat : (3 : UInt8).toNat = 3 := rfl
  rw [hnat] at hsuffix
  rw [hall, ← List.append_assoc, hsuffix]

theorem timerTurn_session (env : Nat → World) (s : State) :
    (timerTurn env s).session.store = s.session.store ∧
      ((timerTurn env s).session.pairing = s.session.pairing ∨
        (timerTurn env s).session.pairing = {}) := by
  unfold timerTurn
  dsimp only
  split
  · have hbeat : (sendHeartbeat (env 1) (expirePairing (env 0) s)).session =
        (expirePairing (env 0) s).session := finish_session ..
    rw [hbeat]
    unfold expirePairing
    split
    · rw [finish_session]
      exact ⟨rfl, .inr rfl⟩
    · exact ⟨rfl, .inl rfl⟩
  · exact ⟨rfl, .inl rfl⟩

/-- What a turn does to the store and the pairing. -/
inductive Does (s : State) (w : Watch) (t : Turn) (s' : Session) : Prop
  | quiet (hbutton : ∀ button, t.action = .message (.hidButton button) →
        ¬ Completes (t.env 0).inputs button s.session.pairing)
      (herases : Erases s.session.store s'.store) (hfollows : Follows (w.turn s t) s'.pairing)
  | pressed (button : UInt8) (haction : t.action = .message (.hidButton button))
      (hcompletes : Completes (t.env 0).inputs button s.session.pairing)
      (hs : s' = (completePairing (t.env 0).inputs { s.session with
        pairing := { s.session.pairing with progress := 4 } }).session)
  | confirmed (haction : t.action = .message .consoleConfirmPairing)
      (hpending : s.session.pairing.pending = true)
      (hs : s' = (completePairing (t.env 0).inputs s.session).session)

/-- A message that presses nothing and begins nothing. -/
theorem Does.kept {s : State} {t : Turn} {s' : Session} (h : Follows w s.session.pairing)
    (hbutton : ∀ button, t.action ≠ .message (.hidButton button)) (hturn : w.turn s t = w)
    (hboth : Erases s.session.store s'.store ∧
      (s'.pairing = s.session.pairing ∨ s'.pairing = {})) : Does s w t s' := by
  obtain ⟨herases, hpairing⟩ := hboth
  refine .quiet (fun button hb => absurd hb (hbutton button)) herases ?_
  rw [hturn]
  obtain hsame | hclear := hpairing
  · exact hsame ▸ h
  · exact hclear ▸ follows_clear w

theorem step_does {s task : State} {t : Turn} (h : Follows w s.session.pairing)
    (hstep : step hmac s t = some task) : Does s w t task.session := by
  obtain ⟨action, env⟩ := t
  obtain rfl := Option.some.inj hstep
  cases action with
  | timer =>
    obtain ⟨hstore, hpairing⟩ := timerTurn_session env s
    exact .kept h (fun _ h => by cases h) rfl ⟨hstore ▸ .refl _, hpairing⟩
  | message m =>
    have hfinish : ∀ o : Outcome, (finish (env 0) o
        { s with rxBuffer := msgRxBuffer s.rxBuffer m }).session = o.session := fun o =>
      finish_session ..
    cases m with
    | rxChunk link bytes =>
      obtain ⟨herases, hfollows⟩ := rxEvents_keeps hmac env link (handleRxChunk s.rxBuffer bytes).1
        0 (s := { s with log := s.log ++ [.received link] }) h
      exact .quiet (fun _ h => by cases h) herases hfollows
    | hidButton button =>
      have hsession : (processMsg hmac env (.hidButton button) s).session =
          (applyPairingButton (env 0).inputs button s.session).session := hfinish _
      obtain ⟨hcompletes, hs⟩ | ⟨hnot, hstore, hpresses⟩ :=
        applyPairingButton_cases (env 0).inputs button s.session
      · exact .pressed button rfl hcompletes (hsession.trans hs)
      · rw [← hsession] at hstore hpresses
        refine .quiet ?_ (hstore ▸ .refl _) (hpresses.follows h)
        intro other hother
        cases hother
        exact hnot
    | consoleConfirmPairing =>
      have hsession : (processMsg hmac env .consoleConfirmPairing s).session =
          (completePairing (env 0).inputs s.session).session := hfinish _
      by_cases hpending : s.session.pairing.pending = true
      · exact .confirmed rfl hpending hsession
      · rw [completePairing, if_pos hpending] at hsession
        exact .kept h (fun _ h => by cases h) rfl ⟨hsession ▸ .refl _, .inl
          (congrArg Session.pairing hsession)⟩
    | consoleCancelPairing =>
      have hsession := hfinish (cancelPairing 0 .event s.session)
      exact .kept h (fun _ h => by cases h) rfl ⟨hsession ▸ .refl _, .inr
        (congrArg Session.pairing hsession)⟩
    | consoleRevokeClient clientId =>
      have hsession := hfinish (revokeClientInternal (env 0).inputs clientId s.session)
      obtain ⟨herases, hpairing⟩ := revokeClientInternal_keeps (env 0).inputs clientId s.session
      exact .kept h (fun _ h => by cases h) rfl ⟨hsession ▸ herases, .inl (hsession ▸ hpairing)⟩
    | consoleRevokeAll =>
      have hsession := hfinish (revokeAllInternal (env 0).inputs s.session)
      obtain ⟨herases, hpairing⟩ := revokeAllInternal_keeps (env 0).inputs s.session
      exact .kept h (fun _ h => by cases h) rfl ⟨hsession ▸ herases, .inl (hsession ▸ hpairing)⟩
    | linkConnected =>
      have hsession := hfinish (snapshotEvent Opcode.snapshot.code s.session)
      exact .kept h (fun _ h => by cases h) rfl ⟨hsession ▸ .refl _, .inl
        (congrArg Session.pairing hsession)⟩
    | linkDisconnected =>
      have hsession := hfinish (snapshotEvent Opcode.snapshot.code (endSession s.session))
      have hpairing := congrArg Session.pairing hsession
      exact .kept h (fun _ h => by cases h) rfl ⟨hsession ▸ .refl s.session.store, .inl hpairing⟩
    | stateEvent opcode =>
      have hsession := hfinish (snapshotEvent opcode s.session)
      exact .kept h (fun _ h => by cases h) rfl ⟨hsession ▸ .refl _, .inl
        (congrArg Session.pairing hsession)⟩

/-! ## Runs -/

theorem condition_of_quiet {s : System} {t : Turn}
    (hbutton : ∀ button, t.action = .message (.hidButton button) →
      ¬ Completes (t.env 0).inputs button s.task.session.pairing) : Condition s t := by
  unfold Condition
  split
  · next button haction =>
    intro _ hpending hthree htime hlast
    exact absurd ⟨hpending, hthree, htime, hlast⟩ (hbutton button haction)
  · trivial

theorem condition_of_pressed {s : System} {t : Turn} {button : UInt8}
    (haction : t.action = .message (.hidButton button))
    (hcompletes : Completes (t.env 0).inputs button s.task.session.pairing) :
    Condition s t ↔ Stores (t.env 0).inputs s.task.session := by
  unfold Condition
  rw [haction]
  exact ⟨fun h => h hcompletes.1 hcompletes.2.1 hcompletes.2.2.1 hcompletes.2.2.2,
    fun h _ _ _ _ => h⟩

/-- A turn is sound exactly when it meets the condition, and then keeps the invariant. -/
theorem sound_iff {s : System} {t : Turn} (h : Follows s.watch s.task.session.pairing) :
    (Sound hmac s t ↔ Condition s t) ∧ ∀ s', next hmac s t = some s' → Sound hmac s t →
      Follows s'.watch s'.task.session.pairing := by
  obtain ⟨task, hstep⟩ : ∃ task, step hmac s.task t = some task := ⟨_, rfl⟩
  have hnext : ∀ s', next hmac s t = some s' → s' = ⟨task, s.watch.turn s.task t⟩ := by
    intro s' hs'
    rw [next, hstep] at hs'
    exact (Option.some.inj hs').symm
  have hsound : Sound hmac s t ↔ (∀ slot record, task.session.store slot = some record →
      s.task.session.store slot ≠ some record → ByButtons s.watch t ∨ ByConsole s.task t) ∧
      (task.session.pairing.pending = true → task.session.pairing.progress < 4) := by
    constructor
    · exact fun hs => ⟨hs.stored task hstep, hs.open_ task hstep⟩
    · intro ⟨hstored, hopen⟩
      constructor
      · intro other hother
        rw [hstep] at hother
        exact Option.some.inj hother ▸ hstored
      · intro other hother
        rw [hstep] at hother
        exact Option.some.inj hother ▸ hopen
  rw [hsound]
  cases step_does h hstep with
  | quiet hbutton herases hfollows =>
    refine ⟨iff_of_true ⟨?_, ?_⟩ (condition_of_quiet hbutton), ?_⟩
    · intro slot record hnew hold
      exact absurd (herases.not_new hnew) hold
    · exact fun hpending => (hfollows hpending).1
    · intro s' hs' _
      rw [hnext s' hs']
      exact hfollows
  | pressed button haction hcompletes hs =>
    have hpairing : task.session.pairing = if Stores (t.env 0).inputs s.task.session then {}
        else { s.task.session.pairing with progress := 4 } := by
      rw [hs]
      exact completePairing_pairing (t.env 0).inputs
        { s.task.session with pairing := { s.task.session.pairing with progress := 4 } }
        hcompletes.1
    have hgood : ByButtons s.watch t := by
      obtain ⟨-, hbegun, hfour, -⟩ := h hcompletes.1
      exact ⟨button, _, _, haction, hbegun, hfour, hcompletes.presses h, hcompletes.2.2.1⟩
    rw [condition_of_pressed haction hcompletes, hpairing]
    by_cases hstores : Stores (t.env 0).inputs s.task.session
    · rw [if_pos hstores]
      refine ⟨iff_of_true ⟨fun _ _ _ _ => .inl hgood, fun h => by cases h⟩ hstores,
        fun s' hs' _ => ?_⟩
      rw [hnext s' hs']
      show Follows _ task.session.pairing
      rw [hpairing, if_pos hstores]
      exact follows_clear _
    · rw [if_neg hstores]
      have hstuck : ¬ (s.task.session.pairing.pending = true → (4 : UInt8) < 4) := fun hopen =>
        absurd (hopen hcompletes.1) (by decide)
      exact ⟨iff_of_false (fun hboth => hstuck hboth.2) hstores,
        fun s' _ hboth => absurd hboth.2 hstuck⟩
  | confirmed haction hpending hs =>
    have hpairing := completePairing_pairing (t.env 0).inputs s.task.session hpending
    rw [← hs] at hpairing
    have hfollows : Follows s.watch task.session.pairing := by
      rw [hpairing]
      split
      · exact follows_clear _
      · exact h
    have hcondition : Condition s t := by
      unfold Condition
      rw [haction]
      trivial
    refine ⟨iff_of_true ⟨?_, fun hp => (hfollows hp).1⟩ hcondition, fun s' hs' _ => ?_⟩
    · exact fun _ _ _ _ => .inr ⟨haction, hpending⟩
    · rw [hnext s' hs']
      show Follows (s.watch.turn s.task t) _
      rw [Watch.turn, haction]
      exact hfollows

/-- **Pairing by buttons.** Records are created and replaced only by the right buttons in
a row and in time or by the console, and a pending pairing stays open, exactly as long as
the record can be stored whenever the last button comes. -/
theorem pairing_sequence (hmac : Hmac) (store : Store) (count : UInt8) (now : UInt32)
    (turns : List Turn) :
    Along (next hmac) (Sound hmac) (init store count now) turns ↔
      Along (next hmac) Condition (init store count now) turns := by
  refine along_congr (I := fun s => Follows s.watch s.task.session.pairing) ?_ ?_ (follows_clear _)
  · exact fun s t s' h hsound hs' => (sound_iff h).2 s' hs' hsound
  · exact fun s t h => (sound_iff h).1

/-- The pairing of a client and its four buttons; NVS cannot be opened at the last one. -/
def unstored : List Turn :=
  let failing : World :=
    { Authorisation.silentWorld with
      inputs :=
        { Authorisation.silentWorld.inputs with nvs := { Nvs.working with openWrite := .fail } } }
  [Authorisation.turnOf (.rxChunk 1 (Chunking.encodeRequest Authorisation.pairBeginRequest)),
    Authorisation.turnOf (.hidButton 0), Authorisation.turnOf (.hidButton 1),
    Authorisation.turnOf (.hidButton 2), ⟨.message (.hidButton 3), fun _ => failing⟩]

/-- The pairing is left pending with all four buttons pressed. -/
theorem pairing_stuck :
    ¬ Along (next default) (Sound default) (init (fun _ => none) 0 0) unstored := by
  intro h
  have hopen := ((((h.2 _ rfl).2 _ rfl).2 _ rfl).2 _ rfl).1.open_ _ rfl (by decide +kernel)
  revert hopen
  decide +kernel

end Jukeboy.CompanionApi.PairingSequence
