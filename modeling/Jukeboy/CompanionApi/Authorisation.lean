import Jukeboy.Base.History
import Jukeboy.CompanionApi.Chunking
import Jukeboy.CompanionApi.Task

/-! # Who may use the companion API

A link is granted the protected requests by its own proof of a stored client's
secret, or by its own pairing. `s_authenticated` is one flag for whichever link
is up, so a grant follows the link only while the task learns of every change
of link in time: `KeepsLink` is that condition, step by step, in runs that hold
the changes themselves beside the messages about them. -/
namespace Jukeboy.CompanionApi.Authorisation
open Jukeboy.Base Jukeboy.Base.Runs Jukeboy.Base.History
open Jukeboy.CompanionApi.Tlv Jukeboy.CompanionApi.Protocol Jukeboy.CompanionApi.TrustedStore
open Jukeboy.CompanionApi.RequestHandlers Jukeboy.CompanionApi.Task
open Jukeboy.CompanionApi.Chunking (encodeRequest)
open Jukeboy.CompanionApi.RxBuffer (Request RxEvent)

/-! ## Reading the log -/

def linkOf : Effect → Option Nat
  | .received l => some l
  | _ => none

/-- The link whose chunk was processed last. -/
def curLink (log : List Effect) : Option Nat := latest linkOf log

def nonceOf : Effect → Option (Bytes × Bytes)
  | .nonceIssued clientId nonce => some (clientId, nonce)
  | _ => none

/-- The client and the nonce of the latest challenge. -/
def latestNonce (log : List Effect) : Option (Bytes × Bytes) := latest nonceOf log

def pairMarkOf : Effect → Option (Option Nat)
  | .pairBegun l => some (some l)
  | .pairCleared => some none
  | _ => none

/-- The link whose `PAIR_BEGIN` is pending. -/
def pairOwner (log : List Effect) : Option Nat := (latest pairMarkOf log).join

/-- **What entitles a link to the protected requests.** It answered the latest
challenge, which was for a stored client, with the HMAC of the nonce; or a
pairing was completed whose `PAIR_BEGIN` it had sent. -/
inductive Granted (hmac : Hmac) (link : Nat) (log : List Effect) : Prop where
  | proof (pre post : List Effect) (clientId nonce proof : Bytes) (store : Store)
      (slot : Fin maxTrustedClients) (record : Record)
      (happened : log = pre ++ .proofAccepted link clientId proof store :: post)
      (challenged : latestNonce pre = some (clientId, nonce))
      (stored : store slot = some record ∧ record.clientId = clientId)
      (keyed : proof = hmac.sha256 record.secret nonce)
  | pairing (pre post : List Effect) (happened : log = pre ++ .pairCompleted :: post)
      (own : pairOwner pre = some link)

theorem Granted.append {hmac : Hmac} {l : Nat} {log : List Effect} (h : Granted hmac l log)
    (more : List Effect) : Granted hmac l (log ++ more) := by
  cases h with
  | proof pre post clientId nonce proof store slot record happened challenged stored keyed =>
    refine .proof pre (post ++ more) clientId nonce proof store slot record ?_ challenged stored
      keyed
    rw [happened, List.append_assoc, List.cons_append]
  | pairing pre post happened own =>
    refine .pairing pre (post ++ more) ?_ own
    rw [happened, List.append_assoc, List.cons_append]

/-- A protected request is dispatched only for a link entitled to it. -/
def Entitled (hmac : Hmac) (pre : List Effect) (e : Effect) : Prop :=
  ∀ link opcode, e = .dispatched link opcode → opcodeRequiresAuth opcode = true →
    Granted hmac link pre

/-- The effects that have no part in the authentication. -/
def Quiet : Effect → Prop
  | .sent .. | .called _ => True
  | _ => False

theorem Quiet.linkOf_eq {e : Effect} (h : Quiet e) : linkOf e = none := by
  cases e <;> first | rfl | exact h.elim

theorem Quiet.nonceOf_eq {e : Effect} (h : Quiet e) : nonceOf e = none := by
  cases e <;> first | rfl | exact h.elim

theorem Quiet.pairMarkOf_eq {e : Effect} (h : Quiet e) : pairMarkOf e = none := by
  cases e <;> first | rfl | exact h.elim

theorem Quiet.entitled {hmac : Hmac} {e : Effect} (h : Quiet e) (pre : List Effect) :
    Entitled hmac pre e := by
  rintro link opcode rfl
  exact h.elim

/-! ## The invariant -/

/-- The authentication globals say nothing the log does not bear out. -/
structure AuthInv (hmac : Hmac) (s : Session) (log : List Effect) : Prop where
  granted : s.authenticated = true → ∃ l, curLink log = some l ∧ Granted hmac l log
  owner : s.pairing.pending = true → ∃ l, pairOwner log = some l
  nonce : s.authChallengePending = true → latestNonce log = some (s.authClientId, s.authNonce)
  entitled : Justified (Entitled hmac) log

/-- A session that claims no more than another. -/
structure Session.Weaker (s' s : Session) : Prop where
  authenticated : s'.authenticated = true → s.authenticated = true
  pending : s'.pairing.pending = true → s.pairing.pending = true
  challenge : s'.authChallengePending = true → s.authChallengePending = true ∧
    s'.authClientId = s.authClientId ∧ s'.authNonce = s.authNonce

theorem Session.Weaker.refl (s : Session) : Session.Weaker s s :=
  ⟨id, id, fun h => ⟨h, rfl, rfl⟩⟩

theorem Session.Weaker.trans {s t u : Session} (h₁ : Session.Weaker s t)
    (h₂ : Session.Weaker t u) : Session.Weaker s u := by
  refine ⟨h₂.authenticated ∘ h₁.authenticated, h₂.pending ∘ h₁.pending, fun h => ?_⟩
  obtain ⟨ht, hid, hn⟩ := h₁.challenge h
  obtain ⟨hu, hid', hn'⟩ := h₂.challenge ht
  exact ⟨hu, hid.trans hid', hn.trans hn'⟩

theorem AuthInv.weaken {hmac : Hmac} {s s' : Session} {log : List Effect}
    (h : AuthInv hmac s log) (hw : Session.Weaker s' s) : AuthInv hmac s' log := by
  refine ⟨h.granted ∘ hw.authenticated, h.owner ∘ hw.pending, fun hc => ?_, h.entitled⟩
  obtain ⟨hc, hid, hn⟩ := hw.challenge hc
  rw [hid, hn]
  exact h.nonce hc

theorem AuthInv.append_quiet {hmac : Hmac} {s : Session} {log more : List Effect}
    (h : AuthInv hmac s log) (hq : ∀ e ∈ more, Quiet e) : AuthInv hmac s (log ++ more) := by
  have hlink : curLink (log ++ more) = curLink log :=
    latest_append_of_none fun e he => (hq e he).linkOf_eq
  have hnonce : latestNonce (log ++ more) = latestNonce log :=
    latest_append_of_none fun e he => (hq e he).nonceOf_eq
  have howner : pairOwner (log ++ more) = pairOwner log :=
    congrArg Option.join (latest_append_of_none fun e he => (hq e he).pairMarkOf_eq)
  refine ⟨fun ha => ?_, fun hp => ?_, fun hc => ?_, ?_⟩
  · obtain ⟨l, hl, hg⟩ := h.granted ha
    exact ⟨l, hlink.trans hl, hg.append more⟩
  · obtain ⟨l, hl⟩ := h.owner hp
    exact ⟨l, howner.trans hl⟩
  · exact hnonce.trans (h.nonce hc)
  · exact justified_append.mpr
      ⟨h.entitled, justified_of_forall fun pre e he => (hq e he).entitled _⟩

/-- An event that is not a dispatch leaves the dispatches before it entitled. -/
theorem Justified.snoc_of_ne {hmac : Hmac} {log : List Effect} {e : Effect}
    (h : Justified (Entitled hmac) log) (hne : ∀ l op, e ≠ .dispatched l op) :
    Justified (Entitled hmac) (log ++ [e]) := by
  refine justified_snoc.mpr ⟨h, ?_⟩
  intro l op heq
  exact absurd heq (hne l op)

theorem AuthInv.dispatched {hmac : Hmac} {s : Session} {log : List Effect} {l : Nat}
    {opcode : UInt16} (h : AuthInv hmac s log)
    (hg : opcodeRequiresAuth opcode = true → Granted hmac l log) :
    AuthInv hmac s (log ++ [.dispatched l opcode]) := by
  have hlink : curLink (log ++ [.dispatched l opcode]) = curLink log :=
    latest_append_of_none (by simp [linkOf])
  have hnonce : latestNonce (log ++ [.dispatched l opcode]) = latestNonce log :=
    latest_append_of_none (by simp [nonceOf])
  have howner : pairOwner (log ++ [.dispatched l opcode]) = pairOwner log :=
    congrArg Option.join (latest_append_of_none (by simp [pairMarkOf]))
  refine ⟨fun ha => ?_, fun hp => ?_, fun hc => ?_, justified_snoc.mpr ⟨h.entitled, ?_⟩⟩
  · obtain ⟨l', hl, hg'⟩ := h.granted ha
    exact ⟨l', hlink.trans hl, hg'.append _⟩
  · obtain ⟨l', hl⟩ := h.owner hp
    exact ⟨l', howner.trans hl⟩
  · exact hnonce.trans (h.nonce hc)
  · rintro l' op heq hop
    obtain ⟨rfl, rfl⟩ := Effect.dispatched.inj heq
    exact hg hop

/-- A chunk of another link may follow only once the session has ended. -/
theorem AuthInv.received {hmac : Hmac} {s : Session} {log : List Effect} {l : Nat}
    (h : AuthInv hmac s log) (hl : s.authenticated = true → curLink log = some l) :
    AuthInv hmac s (log ++ [.received l]) := by
  have hlink : curLink (log ++ [.received l]) = some l := latest_snoc rfl
  have hnonce : latestNonce (log ++ [.received l]) = latestNonce log :=
    latest_append_of_none (by simp [nonceOf])
  have howner : pairOwner (log ++ [.received l]) = pairOwner log :=
    congrArg Option.join (latest_append_of_none (by simp [pairMarkOf]))
  refine ⟨fun ha => ?_, fun hp => ?_, fun hc => ?_, ?_⟩
  · obtain ⟨l', hl', hg⟩ := h.granted ha
    obtain rfl : l' = l := Option.some.inj (hl'.symm.trans (hl ha))
    exact ⟨l', hlink, hg.append _⟩
  · obtain ⟨l', hl'⟩ := h.owner hp
    exact ⟨l', howner.trans hl'⟩
  · exact hnonce.trans (h.nonce hc)
  · exact Justified.snoc_of_ne h.entitled (by simp)

/-- A mark of the authentication: what the session claims after it must be
borne out by it or by the log before. -/
theorem AuthInv.mark {hmac : Hmac} {s s' : Session} {log : List Effect} {e : Effect}
    (h : AuthInv hmac s log) (hlink : linkOf e = none) (hne : ∀ l op, e ≠ .dispatched l op)
    (granted : s'.authenticated = true → s.authenticated = true ∨
      ∃ l, curLink log = some l ∧ Granted hmac l (log ++ [e]))
    (owner : s'.pairing.pending = true → ∃ l, pairOwner (log ++ [e]) = some l)
    (nonce : s'.authChallengePending = true →
      latestNonce (log ++ [e]) = some (s'.authClientId, s'.authNonce)) :
    AuthInv hmac s' (log ++ [e]) := by
  have hcur : curLink (log ++ [e]) = curLink log :=
    latest_append_of_none (by simpa using hlink)
  refine ⟨fun ha => ?_, owner, nonce, Justified.snoc_of_ne h.entitled hne⟩
  rcases granted ha with ha | ⟨l, hl, hg⟩
  · obtain ⟨l, hl, hg⟩ := h.granted ha
    exact ⟨l, hcur.trans hl, hg.append _⟩
  · exact ⟨l, hcur.trans hl, hg⟩

theorem latestNonce_snoc {log : List Effect} {e : Effect} (h : nonceOf e = none) :
    latestNonce (log ++ [e]) = latestNonce log :=
  latest_append_of_none (by simpa using h)

theorem pairOwner_snoc {log : List Effect} {e : Effect} (h : pairMarkOf e = none) :
    pairOwner (log ++ [e]) = pairOwner log :=
  congrArg Option.join (latest_append_of_none (by simpa using h))

theorem AuthInv.pairCleared {hmac : Hmac} {s : Session} {log : List Effect}
    (h : AuthInv hmac s log) : AuthInv hmac s.clearPairing (log ++ [.pairCleared]) := by
  refine h.mark rfl (by simp) Or.inl (fun hp => by cases hp) fun hc => ?_
  exact (latestNonce_snoc rfl).trans (h.nonce hc)

theorem AuthInv.pairBegun {hmac : Hmac} {s : Session} {log : List Effect} (pairing : Pairing)
    (l : Nat) (h : AuthInv hmac s log) :
    AuthInv hmac { s with pairing } (log ++ [.pairBegun l]) := by
  refine h.mark rfl (by simp) Or.inl (fun _ => ⟨l, ?_⟩) fun hc => ?_
  · exact congrArg Option.join (@latest_snoc _ _ pairMarkOf log _ (some l) rfl)
  · exact (latestNonce_snoc rfl).trans (h.nonce hc)

theorem AuthInv.nonceIssued {hmac : Hmac} {s : Session} {log : List Effect} (clientId nonce : Bytes)
    (h : AuthInv hmac s log) :
    AuthInv hmac
      { s with authNonce := nonce, authClientId := clientId, authChallengePending := true }
      (log ++ [.nonceIssued clientId nonce]) := by
  refine h.mark rfl (by simp) Or.inl (fun hp => ?_) fun _ => latest_snoc rfl
  obtain ⟨l, hl⟩ := h.owner hp
  exact ⟨l, (pairOwner_snoc rfl).trans hl⟩

/-! ## Handlers -/

/-- A handler's outcome keeps the invariant, and takes no chunk. -/
structure Keeps (hmac : Hmac) (log : List Effect) (o : Outcome) : Prop where
  inv : AuthInv hmac o.session (log ++ o.effects)
  link : ∀ e ∈ o.effects, linkOf e = none

theorem Keeps.of_weaker {hmac : Hmac} {s : Session} {log : List Effect} {o : Outcome}
    (h : AuthInv hmac s log) (hw : Session.Weaker o.session s) (hq : ∀ e ∈ o.effects, Quiet e) :
    Keeps hmac log o :=
  ⟨(h.weaken hw).append_quiet hq, fun e he => (hq e he).linkOf_eq⟩

theorem Keeps.say {hmac : Hmac} {s : Session} {log : List Effect} (h : AuthInv hmac s log)
    (r : Reply) : Keeps hmac log (.say s r) :=
  .of_weaker h (.refl s) (by simp [Outcome.say])

theorem afterStore_weaker (s : Session) (nvs : Nvs) (r : StoreResult) :
    Session.Weaker (s.afterStore nvs r) s := by
  unfold Session.afterStore
  split
  · exact ⟨id, id, fun h => ⟨h, rfl, rfl⟩⟩
  · exact ⟨id, id, fun h => ⟨h, rfl, rfl⟩⟩

theorem dropActive_weaker (s : Session) : Session.Weaker s.dropActive s :=
  ⟨fun h => (by cases h), id, fun h => ⟨h, rfl, rfl⟩⟩

theorem revokeClientInternal_weaker (inp : Inputs) (clientId : Bytes) (s : Session) :
    Session.Weaker (revokeClientInternal inp clientId s).session s := by
  refine (afterStore_weaker _ _ _).trans ?_
  split
  · exact dropActive_weaker s
  · exact .refl s

theorem revokeAllInternal_weaker (inp : Inputs) (s : Session) :
    Session.Weaker (revokeAllInternal inp s).session s := by
  refine (afterStore_weaker _ _ _).trans ?_
  split
  · exact dropActive_weaker s
  · exact .refl s

theorem keeps_handleTrustedRevoke {hmac : Hmac} {s : Session} {log : List Effect}
    (h : AuthInv hmac s log) (inp : Inputs) (r : Request) :
    Keeps hmac log (handleTrustedRevoke inp r s) := by
  unfold handleTrustedRevoke
  split
  · exact .say h _
  · next clientId _ =>
    have hw := revokeClientInternal_weaker inp clientId s
    dsimp only
    split
    · exact .of_weaker h hw (by simp [revokeClientInternal])
    · exact .of_weaker h hw (by simp [revokeClientInternal])

theorem append_pair (log : List Effect) (a b : Effect) : log ++ [a, b] = log ++ [a] ++ [b] := by
  rw [List.append_assoc, List.singleton_append]

theorem keeps_handlePairBegin {hmac : Hmac} {s : Session} {log : List Effect}
    (h : AuthInv hmac s log) (inp : Inputs) (l : Nat) (r : Request) :
    Keeps hmac log (handlePairBegin inp l r s) := by
  unfold handlePairBegin
  split
  · split
    · exact .say h _
    split
    · exact .say h _
    · refine ⟨?_, by simp [linkOf]⟩
      rw [append_pair]
      exact h.pairCleared.pairBegun _ l
  · exact .say h _

theorem keeps_cancelPairing {hmac : Hmac} {s : Session} {log : List Effect}
    (h : AuthInv hmac s log) (requestId : UInt32) (type : FrameType) :
    Keeps hmac log (cancelPairing requestId type s) :=
  ⟨h.pairCleared, by simp [cancelPairing, linkOf]⟩

theorem keeps_handleAuthChallenge {hmac : Hmac} {s : Session} {log : List Effect}
    (h : AuthInv hmac s log) (inp : Inputs) (r : Request) :
    Keeps hmac log (handleAuthChallenge inp r s) := by
  unfold handleAuthChallenge
  split
  · exact .say h _
  · split
    · exact .say h _
    · exact ⟨h.nonceIssued _ _, by simp [linkOf]⟩

theorem foldl_or_eq_zero (bytes : Bytes) (diff : UInt8) :
    bytes.foldl (· ||| ·) diff = 0 ↔ diff = 0 ∧ ∀ b ∈ bytes, b = 0 := by
  induction bytes generalizing diff with
  | nil => simp
  | cons b bytes ih =>
    rw [List.foldl_cons, ih, UInt8.or_eq_zero_iff, List.forall_mem_cons, and_assoc]

/-- The comparison without early exit decides equality. -/
theorem secureEqual_iff {left right : Bytes} (h : left.length = right.length) :
    secureEqual left right = true ↔ left = right := by
  rw [secureEqual, beq_iff_eq, foldl_or_eq_zero]
  induction left generalizing right with
  | nil => cases right <;> simp_all
  | cons a left ih =>
    cases right with
    | nil => cases h
    | cons b right =>
      have ih := ih (Nat.succ.inj h)
      simp only [true_and] at ih
      simp only [List.zipWith_cons_cons, List.forall_mem_cons, UInt8.xor_eq_zero_iff,
        List.cons.injEq, true_and, ih]

theorem keeps_handleAuthProof {hmac : Hmac} {s : Session} {log : List Effect} {l : Nat}
    (h : AuthInv hmac s log) (hl : curLink log = some l) (inp : Inputs) (r : Request) :
    Keeps hmac log (handleAuthProof hmac inp l r s) := by
  unfold handleAuthProof
  split
  · next clientId proof _ _ =>
    split
    · exact .say h _
    next hcheck =>
    simp only [not_or, not_not, ne_eq] at hcheck
    obtain ⟨hpending, hclient, hlen⟩ := hcheck
    split
    · exact .say h _
    next slot record hfound =>
    dsimp only
    split
    · exact .say h _
    next hequal =>
    rw [not_not, secureEqual_iff ((hmac.length_sha256 _ _).trans hlen.symm)] at hequal
    refine ⟨h.mark rfl (by simp) (fun _ => .inr ⟨l, hl, ?_⟩) (fun hp => ?_) (fun hc => by cases hc),
      by simp [linkOf]⟩
    · exact .proof log [] clientId s.authNonce proof s.store slot record rfl
        (hclient ▸ h.nonce hpending) (findRecord_ok hfound) hequal.symm
    · obtain ⟨o, ho⟩ := h.owner hp
      exact ⟨o, (pairOwner_snoc rfl).trans ho⟩
  · exact .say h _

theorem keeps_answerOutcome {hmac : Hmac} {s : Session} {log : List Effect}
    (h : AuthInv hmac s log) (a : ServiceHandlers.Answer) (r : Request) :
    Keeps hmac log (answerOutcome a r s) := by
  refine .of_weaker h (.refl s) ?_
  intro e he
  obtain ⟨call, -, rfl⟩ := List.mem_map.mp he
  trivial

theorem keeps_dispatch {hmac : Hmac} {s : Session} {log : List Effect} {l : Nat}
    (h : AuthInv hmac s log) (hl : curLink log = some l) (w : World) (r : Request) :
    Keeps hmac log (dispatch hmac w l r s) := by
  unfold dispatch
  split
  · exact .say h _
  · exact .say h _
  · unfold handlePing
    split
    · exact .say h _
    · exact .say h _
  · exact keeps_handlePairBegin h w.inputs l r
  · exact .say h _
  · exact keeps_cancelPairing h _ _
  · exact keeps_handleAuthChallenge h w.inputs r
  · exact keeps_handleAuthProof h hl w.inputs r
  · exact .say h _
  · exact keeps_handleTrustedRevoke h w.inputs r
  · exact keeps_answerOutcome h _ r
  · exact .say h _

theorem keeps_handleRequest {hmac : Hmac} {s : Session} {log : List Effect} {l : Nat}
    (h : AuthInv hmac s log) (hl : curLink log = some l) (w : World) (r : Request) :
    Keeps hmac log (handleRequest hmac w l r s) := by
  unfold handleRequest
  split
  · exact .say h _
  next hauth =>
  have hgranted : opcodeRequiresAuth r.opcode = true → Granted hmac l log := by
    intro hop
    obtain ⟨l', hl', hg⟩ := h.granted (by simpa [hop] using hauth)
    obtain rfl : l' = l := Option.some.inj (hl'.symm.trans hl)
    exact hg
  have hcur : curLink (log ++ [.dispatched l r.opcode]) = some l :=
    (latest_append_of_none (by simp [linkOf])).trans hl
  have hk := keeps_dispatch (h.dispatched hgranted) hcur w r
  refine ⟨?_, ?_⟩
  · change AuthInv hmac _ (log ++ .dispatched l r.opcode :: _)
    rw [List.append_cons]
    exact hk.inv
  · intro e he
    rcases List.mem_cons.mp he with rfl | he
    · rfl
    · exact hk.link e he

/-- Whether handling `m` completes the pending pairing: the console confirms it,
or the last button of the sequence is pressed in time; and its record is stored. -/
def completesPairing (inp : Inputs) (s : Session) (m : Msg) : Bool :=
  let p := s.pairing
  let due := match m with
    | .consoleConfirmPairing => true
    | .hidButton button =>
      p.progress == 3 && inp.now ≤ p.deadline && button == p.sequence.getD 3 0
    | _ => false
  due && p.pending && (storeRecord inp.nvs s.store inp.time p.clientId p.appName p.secret).err == .ok

theorem keeps_completePairing {hmac : Hmac} {s : Session} {log : List Effect}
    (h : AuthInv hmac s log) (inp : Inputs)
    (hown : s.pairing.pending = true →
      (storeRecord inp.nvs s.store inp.time s.pairing.clientId s.pairing.appName
        s.pairing.secret).err = .ok →
      s.authenticated = true ∨ pairOwner log = curLink log) :
    Keeps hmac log (completePairing inp s) := by
  unfold completePairing
  split
  · exact .of_weaker h (.refl s) (by simp)
  next hp =>
  rw [not_not] at hp
  dsimp only
  split
  · exact .of_weaker h (afterStore_weaker s _ _) (by simp)
  next herr =>
  rw [ne_eq, not_not] at herr
  refine ⟨?_, by simp [linkOf]⟩
  rw [append_pair]
  refine AuthInv.pairCleared (h.mark rfl (by simp) (fun _ => ?_) (fun hp' => ?_) fun hc => ?_)
  · rcases hown hp herr with ha | heq
    · exact .inl ha
    · obtain ⟨l, hl⟩ := h.owner hp
      exact .inr ⟨l, heq.symm.trans hl, .pairing log [] rfl hl⟩
  · obtain ⟨l, hl⟩ := h.owner hp
    exact ⟨l, (pairOwner_snoc rfl).trans hl⟩
  · obtain ⟨hc, hid, hn⟩ := (afterStore_weaker s _ _).challenge hc
    exact (latestNonce_snoc rfl).trans (by rw [hid, hn]; exact h.nonce hc)

/-- The button that brings the progress to four is the last of the sequence. -/
theorem eq_three_of_last {progress : UInt8} (h : ¬ progress ≥ 4) (h' : progress + 1 ≥ 4) :
    progress = 3 := by
  rw [ge_iff_le, UInt8.le_iff_toNat_le] at h h'
  rw [UInt8.toNat_add] at h'
  simp only [UInt8.reduceToNat] at h h'
  exact UInt8.toNat_inj.mp (by simp only [UInt8.reduceToNat]; omega)

theorem keeps_applyPairingButton {hmac : Hmac} {s : Session} {log : List Effect}
    (h : AuthInv hmac s log) (inp : Inputs) (button : UInt8)
    (hown : completesPairing inp s (.hidButton button) = true →
      s.authenticated = true ∨ pairOwner log = curLink log) :
    Keeps hmac log (applyPairingButton inp button s) := by
  unfold applyPairingButton
  dsimp only
  split
  · exact .of_weaker h (.refl s) (by simp)
  next hready =>
  split
  · exact ⟨h.pairCleared, by simp [linkOf]⟩
  next htime =>
  split
  · exact .of_weaker h ⟨id, id, fun hc => ⟨hc, rfl, rfl⟩⟩ (by simp)
  next hbutton =>
  split
  · next hfour =>
    have hw : Session.Weaker { s with pairing := { s.pairing with
        progress := s.pairing.progress + 1 } } s := ⟨id, id, fun hc => ⟨hc, rfl, rfl⟩⟩
    refine ⟨(keeps_completePairing (h.weaken hw) inp ?_).inv,
      (keeps_completePairing (h.weaken hw) inp ?_).link⟩
    all_goals
      intro hp herr
      refine hown ?_
      have hthree : s.pairing.progress = 3 := eq_three_of_last (not_or.mp hready).2 hfour
      have hintime : inp.now ≤ s.pairing.deadline := UInt32.not_lt.mp htime
      rw [ne_eq, not_not, hthree] at hbutton
      simp only [completesPairing, hthree, Bool.and_eq_true, beq_iff_eq, decide_eq_true_eq]
      exact ⟨⟨⟨⟨trivial, hintime⟩, hbutton⟩, hp⟩, herr⟩
  · exact .of_weaker h ⟨id, id, fun hc => ⟨hc, rfl, rfl⟩⟩ (by simp)

/-- Every message but a chunk keeps the invariant, unless it completes the
pairing of a link that is not the current one. -/
theorem keeps_msgOutcome {hmac : Hmac} {s : Session} {log : List Effect}
    (h : AuthInv hmac s log) (w : World) (m : Msg)
    (hown : completesPairing w.inputs s m = true →
      s.authenticated = true ∨ pairOwner log = curLink log) :
    Keeps hmac log (msgOutcome w s m) := by
  have hsnapshot : ∀ opcode s', Session.Weaker s' s → Keeps hmac log (snapshotEvent opcode s') :=
    fun opcode s' hw => .of_weaker h hw (by simp [snapshotEvent])
  cases m with
  | rxChunk l bytes => exact .of_weaker h (.refl s) (by simp [msgOutcome])
  | hidButton button => exact keeps_applyPairingButton h w.inputs button hown
  | consoleConfirmPairing =>
    refine keeps_completePairing h w.inputs fun hp herr => hown ?_
    simp [completesPairing, hp, herr]
  | consoleCancelPairing => exact keeps_cancelPairing h _ _
  | consoleRevokeClient clientId =>
    exact .of_weaker h (revokeClientInternal_weaker _ _ _)
      (by simp [msgOutcome, revokeClientInternal])
  | consoleRevokeAll =>
    exact .of_weaker h (revokeAllInternal_weaker _ _) (by simp [msgOutcome, revokeAllInternal])
  | linkConnected => exact hsnapshot _ _ (.refl s)
  | linkDisconnected =>
    exact hsnapshot _ _ ⟨fun ha => (by cases ha), id, fun hc => (by cases hc)⟩
  | stateEvent opcode => exact hsnapshot _ _ (.refl s)

/-! ## Steps -/

theorem sendFrame_log (link : Link) (frame : Frame) (s : State) :
    ∃ more, (sendFrame link frame s).log = s.log ++ more ∧ ∀ e ∈ more, Quiet e := by
  unfold sendFrame
  dsimp only
  split
  · exact ⟨[], by simp⟩
  · split
    · exact ⟨[], by simp⟩
    · exact ⟨_, rfl, by simp [Quiet]⟩

theorem finish_log (w : World) (o : Outcome) (s : State) :
    ∃ more, (finish w o s).log = s.log ++ o.effects ++ more ∧ ∀ e ∈ more, Quiet e := by
  unfold finish
  split
  · exact ⟨[], (List.append_nil _).symm, by simp⟩
  · exact sendFrame_log _ _ _

/-- The invariant of a state, with the link whose chunk was processed last. -/
structure Inv (hmac : Hmac) (cur : Option Nat) (s : State) : Prop where
  auth : AuthInv hmac s.session s.log
  cur : curLink s.log = cur

theorem Inv.finish {hmac : Hmac} {cur : Option Nat} {s : State} {o : Outcome}
    (h : Inv hmac cur s) (hk : Keeps hmac s.log o) (w : World) :
    Inv hmac cur (Task.finish w o s) := by
  obtain ⟨more, hlog, hq⟩ := finish_log w o s
  refine ⟨?_, ?_⟩
  · rw [finish_session, hlog]
    exact hk.inv.append_quiet hq
  · rw [hlog, curLink, latest_append_of_none fun e he => (hq e he).linkOf_eq,
      latest_append_of_none hk.link]
    exact h.cur

theorem Inv.rxEvent {hmac : Hmac} {s : State} {l : Nat} (h : Inv hmac (some l) s) (w : World)
    (event : RxEvent) : Inv hmac (some l) (applyRxEvent hmac w l event s) := by
  cases event with
  | overflow =>
    have h' : Inv hmac (some l) (countRxError s) := ⟨h.auth, h.cur⟩
    exact h'.finish (.say h'.auth _) w
  | resync => exact ⟨h.auth, h.cur⟩
  | sendError opcode requestId e => exact h.finish (.say h.auth _) w
  | request r =>
    have hf := h.finish (keeps_handleRequest h.auth h.cur w r) w
    exact ⟨hf.auth, hf.cur⟩

theorem Inv.rxEvents {hmac : Hmac} {l : Nat} (env : Nat → World) (events : List RxEvent) (k : Nat)
    {s : State} (h : Inv hmac (some l) s) :
    Inv hmac (some l) (applyRxEvents hmac env l k events s) := by
  induction events generalizing k s with
  | nil => exact h
  | cons event events ih => exact ih (k + 1) (h.rxEvent (env k) event)

theorem Inv.receiveChunk {hmac : Hmac} {s : State} {l : Nat}
    (h : AuthInv hmac s.session s.log)
    (hl : s.session.authenticated = true → curLink s.log = some l) (env : Nat → World)
    (bytes : Bytes) : Inv hmac (some l) (receiveChunk hmac env l bytes s) := by
  have hrec : Inv hmac (some l) { s with log := s.log ++ [.received l] } :=
    ⟨h.received hl, latest_snoc rfl⟩
  have hev := Inv.rxEvents env (RxBuffer.handleRxChunk s.rxBuffer bytes).1 0 hrec
  exact ⟨hev.auth, hev.cur⟩

theorem Inv.timerTurn {hmac : Hmac} {cur : Option Nat} {s : State} (h : Inv hmac cur s)
    (env : Nat → World) : Inv hmac cur (timerTurn env s) := by
  have hexpire : Inv hmac cur (expirePairing (env 0) s) := by
    unfold expirePairing
    split
    · exact h.finish (keeps_cancelPairing h.auth _ _) (env 0)
    · exact h
  have hbeat := hexpire.finish (.say hexpire.auth ⟨.heartbeat, Opcode.snapshot.code, 0,
    .payload (.tlvs (heartbeatTlvs (env 1) (expirePairing (env 0) s)))⟩) (env 1)
  unfold Task.timerTurn
  dsimp only
  split
  · exact ⟨hbeat.auth, hbeat.cur⟩
  · exact h

theorem authenticated_of_timerTurn {env : Nat → World} {s : State}
    (h : (timerTurn env s).session.authenticated = true) : s.session.authenticated = true := by
  have hexpire : ∀ w, (expirePairing w s).session.authenticated = s.session.authenticated := by
    intro w
    unfold expirePairing
    split
    · rw [finish_session]
      rfl
    · rfl
  unfold timerTurn sendHeartbeat at h
  dsimp only at h
  split at h
  · rw [← hexpire (env 0), ← h, finish_session]
    rfl
  · exact h

/-! ## Links that come and go -/

/-- What happens: a link comes up or goes down, or the task takes a turn. The messages
about links are turns like any other, and may come late or not at all. -/
inductive Event where
  | linkUp
  | linkDown
  | turn (turn : Turn)

/-- The task, the number of links that came up so far, the last of which is numbered by
it, and whether that one still is. -/
structure Connected where
  task : State
  links : Nat
  up : Bool

/-- The link that is up. -/
def Connected.link (c : Connected) : Option Nat := if c.up then some c.links else none

/-- A chunk comes from a link that has come up. -/
def Connected.sent (c : Connected) : Action → Bool
  | .message (.rxChunk l _) => l != 0 && decide (l ≤ c.links)
  | _ => true

def connectedStep (hmac : Hmac) (c : Connected) : Event → Option Connected
  | .linkUp => some { c with links := c.links + 1, up := true }
  | .linkDown => some { c with up := false }
  | .turn turn =>
    if c.sent turn.action then (step hmac c.task turn).map fun task => { c with task } else none

theorem connectedStep_turn {hmac : Hmac} {c d : Connected} {t : Turn}
    (h : connectedStep hmac c (.turn t) = some d) :
    ∃ task, step hmac c.task t = some task ∧ { c with task } = d := by
  simp only [connectedStep] at h
  split at h
  · exact Option.map_eq_some_iff.mp h
  · cases h

/-- **The condition under which a grant follows the link.** A link comes up, or is
heard of as coming up, only after the session has ended. A chunk is processed only
while no link but its own is up, and that of a link other than the one heard last
only after the session has ended. And a pairing is completed only while the link
that began it is still up and the one heard last, or in a session that is
authenticated already. -/
def KeepsLink (c : Connected) : Event → Prop
  | .linkUp => c.task.session.authenticated = false
  | .linkDown => True
  | .turn t =>
    match t.action with
    | .message (.rxChunk l _) => (c.up = true → c.links = l) ∧
      (c.task.session.authenticated = true → curLink c.task.log = some l)
    | .message .linkConnected => c.task.session.authenticated = false
    | .message m => completesPairing (t.env 0).inputs c.task.session m = true →
        c.task.session.authenticated = true ∨ c.up = true ∧
          pairOwner c.task.log = some c.links ∧ curLink c.task.log = some c.links
    | .timer => True

instance (c : Connected) : (e : Event) → Decidable (KeepsLink c e)
  | .linkUp => inferInstanceAs (Decidable (_ = false))
  | .linkDown => inferInstanceAs (Decidable True)
  | .turn ⟨.message (.rxChunk _ _), _⟩ =>
    inferInstanceAs (Decidable ((_ = true → _ = _) ∧ (_ = true → _ = _)))
  | .turn ⟨.message .linkConnected, _⟩ => inferInstanceAs (Decidable (_ = false))
  | .turn ⟨.message (.hidButton _), _⟩ | .turn ⟨.message .consoleConfirmPairing, _⟩
  | .turn ⟨.message .consoleCancelPairing, _⟩ | .turn ⟨.message (.consoleRevokeClient _), _⟩
  | .turn ⟨.message .consoleRevokeAll, _⟩ | .turn ⟨.message .linkDisconnected, _⟩
  | .turn ⟨.message (.stateEvent _), _⟩ =>
    inferInstanceAs (Decidable (_ = true → _ = true ∨ _ = true ∧ _ = _ ∧ _ = _))
  | .turn ⟨.timer, _⟩ => inferInstanceAs (Decidable True)

theorem processMsg_other {hmac : Hmac} {env : Nat → World} {m : Msg} {s : State}
    (h : AuthInv hmac s.session s.log)
    (hown : completesPairing (env 0).inputs s.session m = true →
      s.session.authenticated = true ∨ pairOwner s.log = curLink s.log) :
    Inv hmac (curLink s.log) (finish (env 0) (msgOutcome (env 0) s.session m)
      { s with rxBuffer := msgRxBuffer s.rxBuffer m }) := by
  have hs : Inv hmac (curLink s.log) { s with rxBuffer := msgRxBuffer s.rxBuffer m } := ⟨h, rfl⟩
  exact hs.finish (keeps_msgOutcome h (env 0) m hown) (env 0)

theorem authenticated_of_completePairing {inp : Inputs} {s : Session}
    (h : (completePairing inp s).session.authenticated = true) :
    s.authenticated = true ∨ s.pairing.pending = true ∧
      (storeRecord inp.nvs s.store inp.time s.pairing.clientId s.pairing.appName
        s.pairing.secret).err = .ok := by
  unfold completePairing at h
  split at h
  · exact .inl h
  next hp =>
  dsimp only at h
  split at h
  · exact .inl ((afterStore_weaker s _ _).authenticated h)
  next herr => exact .inr ⟨not_not.mp hp, not_not.mp herr⟩

theorem authenticated_of_applyPairingButton {inp : Inputs} {button : UInt8} {s : Session}
    (h : (applyPairingButton inp button s).session.authenticated = true) :
    s.authenticated = true ∨ completesPairing inp s (.hidButton button) = true := by
  unfold applyPairingButton at h
  dsimp only at h
  split at h
  · exact .inl h
  next hready =>
  split at h
  · exact .inl h
  next htime =>
  split at h
  · exact .inl h
  next hbutton =>
  split at h
  · next hfour =>
    rcases authenticated_of_completePairing h with hbefore | ⟨hp, herr⟩
    · exact .inl hbefore
    right
    have hthree : s.pairing.progress = 3 := eq_three_of_last (not_or.mp hready).2 hfour
    have hintime : inp.now ≤ s.pairing.deadline := UInt32.not_lt.mp htime
    rw [ne_eq, not_not, hthree] at hbutton
    simp only [completesPairing, hthree, Bool.and_eq_true, beq_iff_eq, decide_eq_true_eq]
    exact ⟨⟨⟨⟨trivial, hintime⟩, hbutton⟩, hp⟩, herr⟩
  · exact .inl h

/-- **Who sets the flag**, chunks apart: a message that completes the pairing. -/
theorem authenticated_of_msgOutcome {w : World} {s : Session} {m : Msg}
    (h : (msgOutcome w s m).session.authenticated = true) :
    s.authenticated = true ∨ completesPairing w.inputs s m = true := by
  cases m with
  | rxChunk l bytes => exact .inl h
  | hidButton button => exact authenticated_of_applyPairingButton h
  | consoleConfirmPairing =>
    rcases authenticated_of_completePairing h with hbefore | ⟨hp, herr⟩
    · exact .inl hbefore
    · exact .inr (by simp [completesPairing, hp, herr])
  | consoleCancelPairing => exact .inl h
  | consoleRevokeClient clientId =>
    exact .inl ((revokeClientInternal_weaker w.inputs clientId s).authenticated h)
  | consoleRevokeAll => exact .inl ((revokeAllInternal_weaker w.inputs s).authenticated h)
  | linkConnected => exact .inl h
  | linkDisconnected => cases h
  | stateEvent opcode => exact .inl h

/-- The authentication is borne out by the log, and while a link is up it is that link's. -/
structure Bound (hmac : Hmac) (c : Connected) : Prop where
  auth : AuthInv hmac c.task.session c.task.log
  own : c.task.session.authenticated = true → c.up = true →
    curLink c.task.log = some c.links

theorem bound_other {hmac : Hmac} {c : Connected} {env : Nat → World} {m : Msg}
    (h : Bound hmac c)
    (hown : completesPairing (env 0).inputs c.task.session m = true →
      c.task.session.authenticated = true ∨ c.up = true ∧
        pairOwner c.task.log = some c.links ∧ curLink c.task.log = some c.links) :
    Bound hmac { c with
      task := finish (env 0) (msgOutcome (env 0) c.task.session m)
        { c.task with rxBuffer := msgRxBuffer c.task.rxBuffer m } } := by
  have hinv := processMsg_other h.auth fun hcompletes =>
    (hown hcompletes).imp id fun hlink => hlink.2.1.trans hlink.2.2.symm
  refine ⟨hinv.auth, fun hauth hup => hinv.cur.trans ?_⟩
  rw [finish_session] at hauth
  rcases authenticated_of_msgOutcome hauth with hbefore | hcompletes
  · exact h.own hbefore hup
  · rcases hown hcompletes with hbefore | ⟨-, -, hcur⟩
    · exact h.own hbefore hup
    · exact hcur

/-- **What one step preserves** that keeps the link. -/
theorem bound_step {hmac : Hmac} {c d : Connected} {e : Event} (h : Bound hmac c)
    (hC : KeepsLink c e) (hstep : connectedStep hmac c e = some d) : Bound hmac d := by
  cases e with
  | linkUp =>
    obtain rfl := Option.some.inj hstep
    exact ⟨h.auth, fun hauth => absurd hauth (by rw [show _ = false from hC]; decide)⟩
  | linkDown =>
    obtain rfl := Option.some.inj hstep
    exact ⟨h.auth, fun _ hup => by cases hup⟩
  | turn t =>
    obtain ⟨action, env⟩ := t
    obtain ⟨task, htask, rfl⟩ := connectedStep_turn hstep
    obtain rfl := Option.some.inj htask
    cases action with
    | timer =>
      have hinv : Inv hmac (curLink c.task.log) (timerTurn env c.task) :=
        Inv.timerTurn ⟨h.auth, rfl⟩ env
      refine ⟨hinv.auth, fun hauth hup => hinv.cur.trans (h.own ?_ hup)⟩
      exact authenticated_of_timerTurn hauth
    | message m =>
      cases m with
      | rxChunk l bytes =>
        have hinv := Inv.receiveChunk h.auth hC.2 env bytes
        exact ⟨hinv.auth, fun _ hup => hinv.cur.trans (congrArg some (hC.1 hup).symm)⟩
      | linkConnected =>
        have hnever : completesPairing (env 0).inputs c.task.session .linkConnected = false := by
          simp [completesPairing]
        exact bound_other h fun hc => absurd hc (by rw [hnever]; decide)
      | hidButton _ | consoleConfirmPairing | consoleCancelPairing | consoleRevokeClient _
      | consoleRevokeAll | linkDisconnected | stateEvent _ => exact bound_other h hC

/-! ## Runs -/

/-- No link came up yet. -/
def initConnected (store : Store) (count : UInt8) (now : UInt32) : Connected :=
  ⟨initState store count now, 0, false⟩

theorem bound_init (hmac : Hmac) (store : Store) (count : UInt8) (now : UInt32) :
    Bound hmac (initConnected store count now) where
  auth := ⟨fun h => (by cases h), fun h => (by cases h), fun h => (by cases h), justified_nil _⟩
  own h := by cases h

/-- A link came up, or the task hears that one came up or went down. -/
def Event.ChangesLink : Event → Prop
  | .linkUp => True
  | .linkDown => False
  | .turn t => t.action = .message .linkConnected ∨ t.action = .message .linkDisconnected

theorem step_link_change {hmac : Hmac} {c d : Connected} {e : Event} (hC : KeepsLink c e)
    (hstep : connectedStep hmac c e = some d) (he : e.ChangesLink) :
    d.task.session.authenticated = false := by
  cases e with
  | linkUp =>
    obtain rfl := Option.some.inj hstep
    exact hC
  | linkDown => exact he.elim
  | turn t =>
    obtain ⟨action, env⟩ := t
    obtain ⟨task, htask, rfl⟩ := connectedStep_turn hstep
    obtain rfl := Option.some.inj htask
    rcases he with rfl | rfl
    · exact (congrArg Session.authenticated (finish_session _ _ _)).trans hC
    · exact congrArg Session.authenticated (finish_session _ _ _)

/-- **Authorisation is bound to the link.** In every run of links that come and go,
messages and timer turns whose steps keep the link, every protected request that was
dispatched came from a link that had been granted before; the session is authenticated
only for such a link, which is the one that is up if one is; and it is not authenticated
right after a link came up, or the task heard that one came up or went down. -/
theorem session_bound_authorisation (hmac : Hmac) (store : Store) (count : UInt8) (now : UInt32)
    {events : List Event} {c : Connected}
    (hC : Along (connectedStep hmac) KeepsLink (initConnected store count now) events)
    (hrun : run (connectedStep hmac) (initConnected store count now) events = some c) :
    (∀ pre link opcode post, c.task.log = pre ++ .dispatched link opcode :: post →
      opcodeRequiresAuth opcode = true → Granted hmac link pre) ∧
    (c.task.session.authenticated = true →
      ∃ link, curLink c.task.log = some link ∧ Granted hmac link c.task.log ∧
        (c.up = true → c.links = link)) ∧
    (∀ before last, events = before ++ [last] → last.ChangesLink →
      c.task.session.authenticated = false) := by
  have hbound : Bound hmac c :=
    run_invariant (fun _ _ _ h hC hs => bound_step h hC hs) (bound_init hmac store count now) hC hrun
  refine ⟨?_, ?_, ?_⟩
  · intro pre link opcode post heq hop
    exact hbound.auth.entitled pre _ post heq link opcode rfl hop
  · intro hauth
    obtain ⟨link, hcur, hgranted⟩ := hbound.auth.granted hauth
    refine ⟨link, hcur, hgranted, fun hup => ?_⟩
    exact Option.some.inj ((hbound.own hauth hup).symm.trans hcur)
  · rintro before last rfl hlast
    rw [run_append] at hrun
    obtain ⟨u, hu, hlastrun⟩ := Option.bind_eq_some_iff.mp hrun
    rw [run_cons] at hlastrun
    obtain ⟨v, hv, heq⟩ := Option.bind_eq_some_iff.mp hlastrun
    obtain rfl := Option.some.inj heq
    exact step_link_change (((along_append.mp hC).2 u hu).1) hv hlast

/-! ## Two runs

Link 1 pairs and is served; or another link is, in its place. -/

/-- The effects no grant of `link` is without. -/
def grantsTo (link : Nat) : Effect → Bool
  | .proofAccepted l _ _ _ | .pairBegun l => l == link
  | _ => false

def protectedDispatch (link : Nat) : Effect → Bool
  | .dispatched l opcode => l == link && opcodeRequiresAuth opcode
  | _ => false

theorem Granted.exists_mark {hmac : Hmac} {link : Nat} {log : List Effect}
    (h : Granted hmac link log) : ∃ e ∈ log, grantsTo link e = true := by
  cases h with
  | proof pre post clientId nonce proof store slot record happened _ _ _ =>
    refine ⟨.proofAccepted link clientId proof store, ?_, beq_self_eq_true link⟩
    rw [happened]
    exact List.mem_append_right _ (List.mem_cons_self ..)
  | pairing pre post happened own =>
    obtain ⟨e, he, hmark⟩ := exists_of_latest (Option.join_eq_some_iff.mp own)
    refine ⟨e, ?_, ?_⟩
    · rw [happened]
      exact List.mem_append_left _ he
    · cases e with
      | pairBegun l =>
        obtain rfl : l = link := Option.some.inj (Option.some.inj hmark)
        exact beq_self_eq_true l
      | _ => cases hmark

theorem eq_dispatched_of_protectedDispatch {link : Nat} {e : Effect}
    (h : protectedDispatch link e = true) :
    ∃ opcode, e = .dispatched link opcode ∧ opcodeRequiresAuth opcode = true := by
  cases e with
  | dispatched l opcode =>
    obtain ⟨hl, hop⟩ := Bool.and_eq_true_iff.mp h
    exact ⟨opcode, by rw [beq_iff_eq.mp hl], hop⟩
  | _ => cases h

/-- A device whose link has not enabled notifications and whose NVS works. -/
def silentWorld : World :=
  { inputs :=
      { link := { connected := some 1, notificationsEnabled := false, mtu := 23, maxPayload := 20
                  refusedChunk := none }
        now := 100, time := 0, nonce := [], nvs := .working }
    services := default, uptimeMs := 1000, queueFree := 16 }

def pairBeginRequest : Request :=
  ⟨Opcode.pairBegin.code, 1,
    [⟨.clientId, ascii "a"⟩, ⟨.appName, ascii "b"⟩, ⟨.sharedSecret, List.replicate 32 1⟩,
      ⟨.buttonSequence, [0, 1, 2, 3]⟩].flatMap TlvEntry.encode⟩

def turnOf (m : Msg) : Turn := ⟨.message m, fun _ => silentWorld⟩

/-- Link 1 pairs. -/
def pairing : List Turn :=
  [turnOf .linkConnected, turnOf (.rxChunk 1 (encodeRequest pairBeginRequest)),
    turnOf .consoleConfirmPairing]

/-- A link asks for the list of trusted clients. -/
def listRequest (link : Nat) : Turn :=
  turnOf (.rxChunk link (encodeRequest ⟨Opcode.trustedList.code, 2, []⟩))

/-- Link 1 comes up and pairs, and then something else happens. -/
def pairedThen (rest : List Event) : List Event := .linkUp :: pairing.map .turn ++ rest

/-- No client is trusted yet. -/
def noClients : Connected := initConnected (fun _ => none) 0 0

/-- Link 1 pairs and is then served. -/
theorem session_bound_authorisation_ownPairing :
    ∃ c, run (connectedStep default) noClients (pairedThen [.turn (listRequest 1)]) = some c ∧
      c.task.log.any (protectedDispatch 1) = true ∧
      ∃ link, curLink c.task.log = some link ∧ Granted default link c.task.log ∧
        (c.up = true → c.links = link) := by
  have hchecked : ((run (connectedStep default) noClients (pairedThen [.turn (listRequest 1)])).map fun c =>
        (c.task.session.authenticated, c.task.log.any (protectedDispatch 1))) =
          some (true, true) := by
    decide +kernel
  obtain ⟨c, hrun, hc⟩ := Option.map_eq_some_iff.mp hchecked
  obtain ⟨hauth, hdispatch⟩ := Prod.mk.inj hc
  have hbound := session_bound_authorisation default (fun _ => none) 0 0 (by decide +kernel) hrun
  exact ⟨c, hrun, hdispatch, hbound.2.1 hauth⟩

/-- Link 1 pairs and goes away; the message of its going is lost, and link 2 is served. -/
theorem authorisation_outlives_link :
    ¬ ∀ (hmac : Hmac) (store : Store) (count : UInt8) (now : UInt32) (events : List Event)
      (c : Connected),
      run (connectedStep hmac) (initConnected store count now) events = some c →
      ∀ pre link opcode post, c.task.log = pre ++ .dispatched link opcode :: post →
        opcodeRequiresAuth opcode = true → Granted hmac link pre := by
  intro h
  have hchecked : ((run (connectedStep default) noClients
      (pairedThen [.linkDown, .linkUp, .turn (turnOf .linkConnected),
        .turn (listRequest 2)])).map fun c =>
        (c.task.log.any (protectedDispatch 2), c.task.log.any (grantsTo 2))) =
          some (true, false) := by
    decide +kernel
  obtain ⟨c, hrun, hc⟩ := Option.map_eq_some_iff.mp hchecked
  obtain ⟨hdispatch, hnogrant⟩ := Prod.mk.inj hc
  obtain ⟨e, hmem, he⟩ := List.any_eq_true.mp hdispatch
  obtain ⟨opcode, rfl, hop⟩ := eq_dispatched_of_protectedDispatch he
  obtain ⟨pre, post, heq⟩ := List.append_of_mem hmem
  obtain ⟨g, hg, hgrants⟩ := (h _ _ _ _ _ c hrun pre 2 opcode post heq hop).exists_mark
  have hsome : c.task.log.any (grantsTo 2) = true :=
    List.any_eq_true.mpr ⟨g, heq ▸ List.mem_append_left _ hg, hgrants⟩
  rw [hnogrant] at hsome
  cases hsome

end Jukeboy.CompanionApi.Authorisation
