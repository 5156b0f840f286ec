import Jukeboy.CompanionApi.Revocation
import Jukeboy.CompanionApi.TlvRoundTrip
import Jukeboy.CompanionApi.PairingSequence
import Jukeboy.CompanionApi.Replies
import Mathlib.Data.List.TakeWhile

/-! # A pairing lasts

A client that has paired comes back later. `authenticate_with_credentials` asks for a
challenge and answers it; the task has done anything in between, but to revoke this client or
to pair another one under its name. -/
namespace Jukeboy.CompanionApi.TrustedSession

open Jukeboy.Base Jukeboy.Base.Runs
open Jukeboy.CompanionApi.Tlv Jukeboy.CompanionApi.Protocol Jukeboy.CompanionApi.TrustedStore
open Jukeboy.CompanionApi.ServiceHandlers Jukeboy.CompanionApi.RequestHandlers
open Jukeboy.CompanionApi.Task Jukeboy.CompanionApi.Authorisation Jukeboy.CompanionApi.Revocation
open Jukeboy.CompanionApi.BleClient Jukeboy.CompanionApi.TlvRoundTrip Jukeboy.CompanionApi.Replies
open Jukeboy.CompanionApi.PairingSequence (Stores storeRecord_ok)
open Jukeboy.CompanionApi.RxBuffer (Request RxEvent)

/-! ## The client -/

/-- `CompanionCredentials`, with the client id as the bytes that are sent. -/
structure Credentials where
  clientId : Bytes
  secret : Bytes

/-- The client id is one the firmware can keep: a C string of its size. -/
def Credentials.Usable (c : Credentials) : Prop :=
  c.clientId ≠ [] ∧ c.clientId.length ≤ clientIdMaxLen ∧ 0 ∉ c.clientId

/-- The request of `auth_challenge`. -/
def authChallenge (c : Credentials) (requestId : UInt32) : Request :=
  ⟨Opcode.authChallenge.code, requestId, TlvEntry.encode ⟨.clientId, c.clientId⟩⟩

/-- `bytes.fromhex` of the `nonce_hex` of `decode_auth_challenge`: the last nonce there is. -/
def decodeAuthChallenge (frame : ClientFrame) : Bytes :=
  (frame.tlvs.getD []).foldl
    (fun nonce tlv => if tlv.1 = TlvType.authNonce.code then tlv.2 else nonce) []

/-- The request of `auth_proof`. -/
def authProof (hmac : Hmac) (c : Credentials) (nonce : Bytes) (requestId : UInt32) : Request :=
  ⟨Opcode.authProof.code, requestId, TlvEntry.encode ⟨.clientId, c.clientId⟩ ++
    TlvEntry.encode ⟨.authHmac, hmac.sha256 c.secret nonce⟩⟩

/-- `authenticate_with_credentials` once it has the answer to its challenge; nothing is the
error it raises. -/
def authenticateWithCredentials (hmac : Hmac) (c : Credentials) (challenge : ClientFrame)
    (requestId : UInt32) : Option Request :=
  let nonce := decodeAuthChallenge challenge
  if nonce.length ≠ authNonceLen then none else some (authProof hmac c nonce requestId)

/-! ## What happens to the session -/

/-- One thing the task does to the session. -/
inductive Happening where
  | request (link : Nat) (r : Request)
  | message (m : Msg)
  /-- The check of the deadline of a pairing. -/
  | expiry

/-- With the world it sees. -/
structure Event where
  what : Happening
  world : World

def happen (hmac : Hmac) (s : Session) (e : Event) : Option Session :=
  some (match e.what with
    | .request link r => (handleRequest hmac e.world link r s).session
    | .message m => (msgOutcome e.world s m).session
    | .expiry =>
      if s.pairing.pending ∧ e.world.inputs.now > s.pairing.deadline then s.clearPairing else s)

/-- The requests among the things that the receive path does. -/
def requestEvents (env : Nat → World) (link : Nat) : Nat → List RxEvent → List Event
  | _, [] => []
  | k, .request r :: events => ⟨.request link r, env k⟩ :: requestEvents env link (k + 1) events
  | k, _ :: events => requestEvents env link (k + 1) events

/-- What a turn of the task is made of. -/
def events (s : State) (t : Turn) : List Event :=
  match t.action with
  | .message (.rxChunk link bytes) =>
    requestEvents t.env link 0 (RxBuffer.handleRxChunk s.rxBuffer bytes).1
  | .message m => [⟨.message m, t.env 0⟩]
  | .timer => if (t.env 0).inputs.now ≥ s.nextHeartbeat then [⟨.expiry, t.env 0⟩] else []

theorem rxEvents_happen (hmac : Hmac) (env : Nat → World) (link : Nat) (l : List RxEvent) (k : Nat)
    (s : State) : run (happen hmac) s.session (requestEvents env link k l) =
      some (applyRxEvents hmac env link k l s).session := by
  induction l generalizing k s with
  | nil => rfl
  | cons event l ih =>
    have hrest := ih (k + 1) (applyRxEvent hmac (env k) link event s)
    cases event with
    | request r =>
      have hsession : (applyRxEvent hmac (env k) link (.request r) s).session =
          (handleRequest hmac (env k) link r s.session).session := finish_session ..
      rw [hsession] at hrest
      exact hrest
    | overflow =>
      have hsession : (applyRxEvent hmac (env k) link .overflow s).session = s.session :=
        finish_session ..
      rw [hsession] at hrest
      exact hrest
    | resync => exact hrest
    | sendError opcode requestId e =>
      have hsession : (applyRxEvent hmac (env k) link (.sendError opcode requestId e) s).session =
          s.session := finish_session ..
      rw [hsession] at hrest
      exact hrest

/-- **Every turn of the task** is such things, one after the other. -/
theorem step_happens (hmac : Hmac) {s t : State} {a : Turn} (hstep : step hmac s a = some t) :
    run (happen hmac) s.session (events s a) = some t.session := by
  obtain ⟨action, env⟩ := a
  obtain rfl := Option.some.inj hstep
  cases action with
  | timer =>
    unfold events
    dsimp only
    unfold timerTurn
    dsimp only
    split
    · rw [run_cons_some (t := (expirePairing (env 0) s).session) [] ?_]
      · change some (expirePairing (env 0) s).session =
          some (sendHeartbeat (env 1) (expirePairing (env 0) s)).session
        rw [sendHeartbeat, finish_session]
        rfl
      · unfold expirePairing happen
        dsimp only
        split
        · rw [finish_session]
          rfl
        · rfl
    · rfl
  | message m =>
    cases m with
    | rxChunk link bytes =>
      exact rxEvents_happen hmac env link _ 0 { s with log := s.log ++ [.received link] }
    | hidButton _ | consoleConfirmPairing | consoleCancelPairing | consoleRevokeClient _
    | consoleRevokeAll | linkConnected | linkDisconnected | stateEvent _ =>
      exact congrArg some (finish_session (env 0) _ _).symm

/-! ## The record of the client -/

/-- The record of the client is stored, under no other name and in no other slot. -/
structure Trusts (store : Store) (clientId secret : Bytes) : Prop where
  distinct : Distinct store
  stored : ∃ slot r, recordAt store slot = some r ∧ r.clientId = clientId ∧ r.secret = secret

variable {nvs : Nvs} {store : Store} {clientId secret : Bytes}

/-- The record is the one that is found. -/
theorem Trusts.find (h : Trusts store clientId secret) (hread : Readable nvs) (hid : clientId ≠ []) :
    ∃ slot r, findRecord nvs store clientId = .ok (slot, r) ∧ r.secret = secret := by
  obtain ⟨slot, r, hr, heq, hsecret⟩ := h.stored
  cases hfind : findRecord nvs store clientId with
  | error err => exact absurd heq (findRecord_missing hread hid hfind hr)
  | ok found =>
    obtain ⟨i, q⟩ := found
    obtain ⟨hq, hqid⟩ := findRecord_found hread hfind
    obtain rfl := h.distinct i slot q r hq hr (hqid.trans heq.symm)
    rw [hq] at hr
    cases hr
    exact ⟨i, r, rfl, hsecret⟩

/-- The revocation of another client. -/
theorem Trusts.revoke (h : Trusts store clientId secret) (hread : Readable nvs) {other : Bytes}
    (hne : other ≠ clientId) : Trusts (revokeClient nvs store other).store clientId secret := by
  rcases revokeClient_spec hread store other with hsame | ⟨i, q, -, hq, hqid, hstore, -⟩
  · rwa [hsame]
  · obtain ⟨slot, r, hr, hid, hsecret⟩ := h.stored
    rw [hstore]
    refine ⟨h.distinct.erase fun j => ?_, slot, r, ?_, hid, hsecret⟩
    · by_cases hj : j = i
      · exact .inr (by rw [hj, Function.update_self])
      · exact .inl (Function.update_of_ne hj ..)
    · rw [recordAt_update fun heq => ?_]
      · exact hr
      · rw [heq, hq] at hr
        cases hr
        exact hne (hqid.symm.trans hid)

/-- The pairing of another client takes another slot, or none. -/
theorem Trusts.pair (h : Trusts store clientId secret) (hread : Readable nvs) {other : Bytes}
    (hne : other ≠ clientId) (now : Int) (appName key : Bytes) :
    Trusts (storeRecord nvs store now other appName key).store clientId secret := by
  rcases storeRecord_spec nvs store now other appName key with
    ⟨hsame, -⟩ | ⟨i, q, hid, hslot, hstore, hvalid, hq⟩
  · rwa [hsame]
  · obtain ⟨slot, r, hr, hrid, hsecret⟩ := h.stored
    have hspec := slotForRecord_spec hread hid hslot
    rw [← hq] at hid hslot
    obtain ⟨hdistinct, -, -⟩ := stored_update hread hid hslot h.distinct hvalid
    rw [hstore]
    refine ⟨hdistinct, slot, r, ?_, hrid, hsecret⟩
    rw [recordAt_update fun heq => ?_]
    · exact hr
    · rw [heq] at hr
      rcases hspec with ⟨old, hold, holdid⟩ | ⟨hnone, -⟩
      · rw [hr] at hold
        cases hold
        exact hne (holdid.symm.trans hrid)
      · rw [hr] at hnone
        cases hnone

/-- A pairing that is stored is trusted. -/
theorem trusts_stored (h : Distinct store) (hread : Readable nvs) (hid : clientId ≠ []) {now : Int}
    {appName : Bytes} (hok : (storeRecord nvs store now clientId appName secret).err = .ok) :
    Trusts (storeRecord nvs store now clientId appName secret).store clientId secret := by
  unfold storeRecord at hok ⊢
  rw [if_neg hid] at hok ⊢
  cases hslot : slotForRecord nvs store clientId with
  | none =>
    rw [hslot] at hok
    cases hok
  | some slot =>
    rw [hslot] at hok
    dsimp only at hok ⊢
    split at hok
    · next hopen => exact absurd hok hopen
    · next hopen =>
      split at hok
      · next hset => exact absurd hok hset
      · next hset =>
        rw [if_neg hopen, if_neg hset]
        let r : Record :=
          { version := recordVersion, valid := 1, clientId, appName, secret
            createdAtUnix := unixTimeOrZero now }
        obtain ⟨hdistinct, -, -⟩ := stored_update (r := r) hread hid hslot h rfl
        refine ⟨hdistinct, slot, r, ?_, rfl, rfl⟩
        rw [recordAt_update_self]
        rfl

/-! ## What is kept -/

variable {hmac : Hmac} {s : Session}

/-- The challenge the task has issued last, and for whom. -/
def challenge (s : Session) : Bool × Bytes × Bytes :=
  (s.authChallengePending, s.authClientId, s.authNonce)

theorem afterStore_challenge (s : Session) (nvs : Nvs) (r : StoreResult) :
    challenge (s.afterStore nvs r) = challenge s := by
  unfold Session.afterStore
  split
  · rfl
  · rfl

theorem revokeClientInternal_spec (inp : Inputs) (id : Bytes) (s : Session) :
    (revokeClientInternal inp id s).session.store = (revokeClient inp.nvs s.store id).store ∧
      challenge (revokeClientInternal inp id s).session = challenge s := by
  unfold revokeClientInternal
  dsimp only
  rw [(afterStore_session ..).1, afterStore_challenge]
  split
  · exact ⟨rfl, rfl⟩
  · exact ⟨rfl, rfl⟩

theorem revokeAllInternal_challenge (inp : Inputs) (s : Session) :
    challenge (revokeAllInternal inp s).session = challenge s := by
  unfold revokeAllInternal
  dsimp only
  rw [afterStore_challenge]
  split
  · rfl
  · rfl

/-- The button that completes the sequence of the pairing, in time. -/
def LastPress (inp : Inputs) (p : Pairing) (button : UInt8) : Prop :=
  p.progress = 3 ∧ inp.now ≤ p.deadline ∧ button = p.sequence.getD 3 0

/-- What pairing does to the store, where `due` says whether the pairing is completed. -/
def Paired (inp : Inputs) (due : Prop) (s s' : Session) : Prop :=
  challenge s' = challenge s ∧ (s'.store = s.store ∨ due ∧ s.pairing.pending = true ∧
    s'.store = (storeRecord inp.nvs s.store inp.time s.pairing.clientId s.pairing.appName
      s.pairing.secret).store)

theorem completePairing_paired (inp : Inputs) (s : Session) :
    Paired inp True s (completePairing inp s).session := by
  unfold completePairing
  split
  · exact ⟨rfl, .inl rfl⟩
  · next hpending =>
    have hstore := (afterStore_session s inp.nvs (storeRecord inp.nvs s.store inp.time
      s.pairing.clientId s.pairing.appName s.pairing.secret)).1
    dsimp only
    split
    · exact ⟨afterStore_challenge .., .inr ⟨trivial, not_not.mp hpending, hstore⟩⟩
    · exact ⟨afterStore_challenge .., .inr ⟨trivial, not_not.mp hpending, hstore⟩⟩

theorem applyPairingButton_paired (inp : Inputs) (button : UInt8) (s : Session) :
    Paired inp (LastPress inp s.pairing button) s (applyPairingButton inp button s).session := by
  unfold applyPairingButton
  dsimp only
  split
  · exact ⟨rfl, .inl rfl⟩
  · next hready =>
    split
    · exact ⟨rfl, .inl rfl⟩
    · next htime =>
      split
      · exact ⟨rfl, .inl rfl⟩
      · next hbutton =>
        split
        · next hfour =>
          have hthree : s.pairing.progress = 3 := eq_three_of_last (not_or.mp hready).2 hfour
          rw [hthree] at hbutton
          have hlast : LastPress inp s.pairing button :=
            ⟨hthree, UInt32.not_lt.mp htime, not_not.mp hbutton⟩
          obtain ⟨hsame, hstore⟩ := completePairing_paired inp { s with pairing := _ }
          exact ⟨hsame, hstore.imp id fun hpaired => ⟨hlast, hpaired.2⟩⟩
        · exact ⟨rfl, .inl rfl⟩

/-- A request that changes the store revokes a client. -/
theorem handleRequest_store (hmac : Hmac) (w : World) (link : Nat) (r : Request) (s : Session) :
    (handleRequest hmac w link r s).session.store = s.store ∨
      Opcode.ofCode r.opcode = some .trustedRevoke ∧
        ∃ id, tlvString r.payload .clientId (clientIdMaxLen + 1) = some id ∧
          (handleRequest hmac w link r s).session.store =
            (revokeClient w.inputs.nvs s.store id).store := by
  unfold handleRequest
  split
  · exact .inl rfl
  · dsimp only
    unfold dispatch
    split
    · exact .inl rfl
    · exact .inl rfl
    · unfold handlePing
      split
      · exact .inl rfl
      · exact .inl rfl
    · unfold handlePairBegin
      dsimp only
      split
      · split
        · exact .inl rfl
        · split
          · exact .inl rfl
          · exact .inl rfl
      · exact .inl rfl
    · exact .inl rfl
    · exact .inl rfl
    · unfold handleAuthChallenge
      dsimp only
      split
      · exact .inl rfl
      · split
        · exact .inl rfl
        · exact .inl rfl
    · unfold handleAuthProof
      dsimp only
      split
      · split
        · exact .inl rfl
        · split
          · exact .inl rfl
          · split
            · exact .inl rfl
            · exact .inl rfl
      · exact .inl rfl
    · exact .inl rfl
    · next hop =>
      unfold handleTrustedRevoke
      split
      · exact .inl rfl
      · next id hid =>
        refine .inr ⟨hop, id, hid, ?_⟩
        have hstore := (revokeClientInternal_spec w.inputs id s).1
        dsimp only
        split
        · exact hstore
        · exact hstore
    · exact .inl rfl
    · exact .inl rfl

/-- A request that changes the challenge belongs to an authentication. -/
theorem handleRequest_challenge (hmac : Hmac) (w : World) (link : Nat) {r : Request} (s : Session)
    (hchallenge : Opcode.ofCode r.opcode ≠ some .authChallenge)
    (hproof : Opcode.ofCode r.opcode ≠ some .authProof) :
    challenge (handleRequest hmac w link r s).session = challenge s := by
  unfold handleRequest
  split
  · rfl
  · dsimp only
    unfold dispatch
    split
    · rfl
    · rfl
    · unfold handlePing
      split
      · rfl
      · rfl
    · unfold handlePairBegin
      dsimp only
      split
      · split
        · rfl
        · split
          · rfl
          · rfl
      · rfl
    · rfl
    · rfl
    · next hop => exact absurd hop hchallenge
    · next hop => exact absurd hop hproof
    · rfl
    · unfold handleTrustedRevoke
      split
      · rfl
      · next id hid =>
        have hsame := (revokeClientInternal_spec w.inputs id s).2
        dsimp only
        split
        · exact hsame
        · exact hsame
    · rfl
    · rfl

/-! ## Undisturbed runs -/

/-- The flash can be read, and nobody revokes the client or pairs another one under its name. -/
def Undisturbed (clientId : Bytes) (s : Session) (e : Event) : Prop :=
  Readable e.world.inputs.nvs ∧
    match e.what with
    | .request _ r => Opcode.ofCode r.opcode = some .trustedRevoke →
        tlvString r.payload .clientId (clientIdMaxLen + 1) ≠ some clientId
    | .message (.hidButton button) => LastPress e.world.inputs s.pairing button →
        s.pairing.pending = true → s.pairing.clientId ≠ clientId
    | .message .consoleConfirmPairing =>
      s.pairing.pending = true → s.pairing.clientId ≠ clientId
    | .message (.consoleRevokeClient id) => id ≠ clientId
    | .message .consoleRevokeAll => False
    | _ => True

/-- No other authentication is under way, and the link stays up. -/
def Calm (e : Event) : Prop :=
  match e.what with
  | .request _ r => Opcode.ofCode r.opcode ≠ some .authChallenge ∧
      Opcode.ofCode r.opcode ≠ some .authProof
  | .message .linkDisconnected => False
  | _ => True

theorem Trusts.paired {inp : Inputs} {due : Prop} {s' : Session}
    (h : Trusts s.store clientId secret) (hread : Readable inp.nvs) (hpaired : Paired inp due s s')
    (hne : due → s.pairing.pending = true → s.pairing.clientId ≠ clientId) :
    Trusts s'.store clientId secret := by
  rcases hpaired.2 with hsame | ⟨hdue, hpending, hstore⟩
  · rwa [hsame]
  · rw [hstore]
    exact h.pair hread (hne hdue hpending) _ _ _

/-- What happens keeps the record of the client. -/
theorem trusts_happen {e : Event} {s' : Session} (h : Trusts s.store clientId secret)
    (hC : Undisturbed clientId s e) (hstep : happen hmac s e = some s') :
    Trusts s'.store clientId secret := by
  obtain ⟨what, w⟩ := e
  obtain ⟨hread, hC⟩ := hC
  obtain rfl := Option.some.inj hstep
  cases what with
  | request link r =>
    rcases handleRequest_store hmac w link r s with hsame | ⟨hop, id, hid, hstore⟩
    · exact hsame ▸ h
    · refine hstore ▸ h.revoke hread fun heq => ?_
      exact hC hop (heq ▸ hid)
  | expiry =>
    dsimp only
    split
    · exact h
    · exact h
  | message m =>
    cases m with
    | hidButton button => exact h.paired hread (applyPairingButton_paired w.inputs button s) hC
    | consoleConfirmPairing =>
      exact h.paired hread (completePairing_paired w.inputs s) fun _ => hC
    | consoleRevokeClient id =>
      have hstore := (revokeClientInternal_spec w.inputs id s).1
      exact hstore ▸ h.revoke hread hC
    | consoleRevokeAll => exact hC.elim
    | rxChunk _ _ | consoleCancelPairing | linkConnected | linkDisconnected | stateEvent _ => exact h

/-- What happens keeps the challenge. -/
theorem challenge_happen {e : Event} {s' : Session} (hC : Calm e)
    (hstep : happen hmac s e = some s') : challenge s' = challenge s := by
  obtain ⟨what, w⟩ := e
  obtain rfl := Option.some.inj hstep
  cases what with
  | request link r => exact handleRequest_challenge hmac w link s hC.1 hC.2
  | expiry =>
    dsimp only
    split
    · rfl
    · rfl
  | message m =>
    cases m with
    | hidButton button => exact (applyPairingButton_paired w.inputs button s).1
    | consoleConfirmPairing => exact (completePairing_paired w.inputs s).1
    | consoleRevokeClient id => exact (revokeClientInternal_spec w.inputs id s).2
    | consoleRevokeAll => exact revokeAllInternal_challenge w.inputs s
    | linkDisconnected => exact hC.elim
    | rxChunk _ _ | consoleCancelPairing | linkConnected | stateEvent _ => rfl

/-! ## The two requests -/

variable {c : Credentials}

theorem findTlv_head (t : TlvEntry) (hlen : t.value.length < 65536) (more : Bytes) :
    findTlv (t.encode ++ more) t.type = some t.value := by
  obtain ⟨n, hn⟩ : ∃ n, (t.encode ++ more).length = n + 1 :=
    Nat.exists_eq_succ_of_ne_zero fun hzero => by simp [TlvEntry.encode, u16Bytes] at hzero
  rw [findTlv, hn, findTlvFrom_encode hlen, if_pos rfl]

theorem findTlv_second (t u : TlvEntry) (ht : t.value.length < 65536) (hu : u.value.length < 65536)
    (hne : t.type.code ≠ u.type.code) : findTlv (t.encode ++ u.encode) u.type = some u.value := by
  obtain ⟨n, hn⟩ : ∃ n, (t.encode ++ u.encode).length = n + 2 :=
    ⟨(t.encode ++ u.encode).length - 2, by simp [TlvEntry.encode, u16Bytes]; omega⟩
  rw [findTlv, hn, findTlvFrom_encode ht, if_neg hne, ← List.append_nil u.encode,
    findTlvFrom_encode hu, if_pos rfl]

theorem Credentials.Usable.clientId_lt (h : c.Usable) : c.clientId.length < 65536 := by
  have hlen := h.2.1
  unfold clientIdMaxLen at hlen
  omega

/-- The firmware reads the client id of both requests. -/
theorem tlvString_clientId (h : c.Usable) (more : Bytes) :
    tlvString (TlvEntry.encode ⟨.clientId, c.clientId⟩ ++ more) .clientId (clientIdMaxLen + 1) =
      some c.clientId := by
  rw [tlvString, findTlv_head ⟨.clientId, c.clientId⟩ h.clientId_lt, Option.map_some,
    Nat.add_sub_cancel, List.take_of_length_le h.2.1, cString, List.takeWhile_eq_self_iff.mpr]
  intro b hb
  exact bne_iff_ne.mpr fun hzero => h.2.2 (hzero ▸ hb)

/-- The session with a challenge for the client. -/
def challenged (s : Session) (clientId nonce : Bytes) : Session :=
  { s with authNonce := nonce, authClientId := clientId, authChallengePending := true }

def challengeReply (clientId nonce : Bytes) (requestId : UInt32) : Reply :=
  sendOk Opcode.authChallenge.code requestId
    (append (appendString [] .clientId clientId) .authNonce nonce)

/-- A client that is trusted gets its challenge. -/
theorem handleRequest_authChallenge (hmac : Hmac) (h : Trusts s.store c.clientId secret)
    (husable : c.Usable) {w : World} (hread : Readable w.inputs.nvs) (link : Nat) (id : UInt32) :
    (handleRequest hmac w link (authChallenge c id) s).session =
        challenged s c.clientId w.inputs.nonce ∧
      (handleRequest hmac w link (authChallenge c id) s).reply =
        some (challengeReply c.clientId w.inputs.nonce id) := by
  obtain ⟨slot, r, hfind, -⟩ := h.find hread husable.1
  have hname := tlvString_clientId husable []
  rw [List.append_nil] at hname
  have hopen : ¬ (opcodeRequiresAuth (authChallenge c id).opcode = true ∧ ¬ s.authenticated = true) :=
    fun hboth => by cases hboth.1
  have hop : Opcode.ofCode (authChallenge c id).opcode = some .authChallenge := rfl
  have hdispatch : dispatch hmac w link (authChallenge c id) s =
      handleAuthChallenge w.inputs (authChallenge c id) s := by
    rw [dispatch, hop]
  rw [handleRequest, if_neg hopen, hdispatch, handleAuthChallenge]
  rw [show (authChallenge c id).payload = TlvEntry.encode ⟨.clientId, c.clientId⟩ from rfl, hname]
  dsimp only
  rw [hfind]
  exact ⟨rfl, rfl⟩

/-- The client takes the nonce out of the answer. -/
theorem decodeAuthChallenge_reply (husable : c.Usable) {nonce : Bytes}
    (hnonce : nonce.length = authNonceLen) (id : UInt32) (w : World) (t : State) :
    decodeAuthChallenge (sentFrame (challengeReply c.clientId nonce id) w t).decoded = nonce := by
  let entries : List (TlvType × Bytes) := [(.clientId, c.clientId), (.authNonce, nonce)]
  have hlen := husable.2.1
  unfold clientIdMaxLen at hlen
  have hwriter : append (appendString [] .clientId c.clientId) .authNonce nonce =
      entries.map toTlv := by
    have hwhole : stringBytes c.clientId = c.clientId := List.take_of_length_le (by omega)
    rw [appendString, hwhole]
    refine appendAll_fits [] entries ?_
    simp only [entries, size_cons, size_nil, hnonce, Writer.len, List.map_nil, List.sum_nil,
      authNonceLen, tlvHeaderLen, writerCapacity, frameMaxLen, headerLen]
    omega
  have hparse : parseTlvs ((entries.map toTlv).flatMap TlvEntry.encode) = some (entries.map toRaw) := by
    refine parseTlvsFrom_encode ?_ (Nat.le_refl _)
    intro entry hmem
    simp only [entries, List.mem_cons, List.not_mem_nil, or_false] at hmem
    rcases hmem with rfl | rfl
    · exact husable.clientId_lt
    · show nonce.length < 65536
      rw [hnonce]
      decide
  have htlvs : (sentFrame (challengeReply c.clientId nonce id) w t).decoded.tlvs =
      some (entries.map toRaw) := by
    rw [← hparse, ← hwriter]
    rfl
  rw [decodeAuthChallenge, htlvs]
  rfl

/-- The session of a client that has authenticated. -/
def authenticated (s : Session) (clientId : Bytes) : Session :=
  { s with authenticated := true, authChallengePending := false, activeClientId := clientId }

/-- The proof is taken when it is the one of the stored secret. -/
theorem handleRequest_authProof (hmac : Hmac) (h : Trusts s.store c.clientId secret)
    (husable : c.Usable) {nonce : Bytes} (hchallenge : challenge s = (true, c.clientId, nonce)) {w : World}
    (hread : Readable w.inputs.nvs) (link : Nat) (id : UInt32) :
    let o := handleRequest hmac w link (authProof hmac c nonce id) s
    if hmac.sha256 c.secret nonce = hmac.sha256 secret nonce then
      o.session = authenticated s c.clientId ∧ o.reply = some (sendOk Opcode.authProof.code id
        (appendAuthStatus (authenticated s c.clientId) []))
    else o.session = s ∧ o.reply = some (sendError Opcode.authProof.code id .invalidArg) := by
  intro o
  obtain ⟨slot, r, hfind, hsecret⟩ := h.find hread husable.1
  obtain ⟨hpending, hrest⟩ := Prod.mk.inj hchallenge
  obtain ⟨hclient, hnonce⟩ := Prod.mk.inj hrest
  have hproofLen := hmac.length_sha256 c.secret nonce
  have hname := tlvString_clientId husable (TlvEntry.encode ⟨.authHmac, hmac.sha256 c.secret nonce⟩)
  have hproof : findTlv (authProof hmac c nonce id).payload .authHmac =
      some (hmac.sha256 c.secret nonce) := by
    refine findTlv_second ⟨.clientId, c.clientId⟩ ⟨.authHmac, hmac.sha256 c.secret nonce⟩
      husable.clientId_lt ?_ (show TlvType.clientId.code ≠ TlvType.authHmac.code by decide)
    show (hmac.sha256 c.secret nonce).length < 65536
    omega
  have hopen : ¬ (opcodeRequiresAuth (authProof hmac c nonce id).opcode = true ∧
      ¬ s.authenticated = true) := fun hboth => by cases hboth.1
  have hop : Opcode.ofCode (authProof hmac c nonce id).opcode = some .authProof := rfl
  have hdispatch : dispatch hmac w link (authProof hmac c nonce id) s =
      handleAuthProof hmac w.inputs link (authProof hmac c nonce id) s := by
    rw [dispatch, hop]
  have hcheck : ¬ (¬ s.authChallengePending = true ∨ c.clientId ≠ s.authClientId ∨
      (hmac.sha256 c.secret nonce).length ≠ 32) := by
    rw [hpending, hclient, hproofLen]
    simp
  have hequal : secureEqual (hmac.sha256 r.secret s.authNonce) (hmac.sha256 c.secret nonce) = true ↔
      hmac.sha256 c.secret nonce = hmac.sha256 secret nonce := by
    rw [secureEqual_iff ((hmac.length_sha256 _ _).trans hproofLen.symm), hsecret, hnonce]
    exact eq_comm
  unfold o
  rw [handleRequest, if_neg hopen, hdispatch, handleAuthProof, hproof]
  rw [show (authProof hmac c nonce id).payload = TlvEntry.encode ⟨.clientId, c.clientId⟩ ++
    TlvEntry.encode ⟨.authHmac, hmac.sha256 c.secret nonce⟩ from rfl, hname]
  dsimp only
  rw [if_neg hcheck, hfind]
  dsimp only
  by_cases hsame : hmac.sha256 c.secret nonce = hmac.sha256 secret nonce
  · rw [if_pos hsame, if_neg (not_not.mpr (hequal.mpr hsame))]
    exact ⟨rfl, rfl⟩
  · rw [if_neg hsame, if_pos fun hboth => hsame (hequal.mp hboth)]
    exact ⟨rfl, rfl⟩

/-- Without a challenge a proof is refused, whatever it is. -/
theorem handleRequest_authProof_replayed {nonce : Bytes}
    (hnone : s.authChallengePending = false) (w : World) (link : Nat) (id : UInt32) :
    (handleRequest hmac w link (authProof hmac c nonce id) s).session = s ∧
      (handleRequest hmac w link (authProof hmac c nonce id) s).reply =
        some (sendError Opcode.authProof.code id .invalidArg) := by
  have hop : Opcode.ofCode (authProof hmac c nonce id).opcode = some .authProof := rfl
  have hopen : ¬ (opcodeRequiresAuth (authProof hmac c nonce id).opcode = true ∧
      ¬ s.authenticated = true) := fun hboth => by cases hboth.1
  have hdispatch : dispatch hmac w link (authProof hmac c nonce id) s =
      handleAuthProof hmac w.inputs link (authProof hmac c nonce id) s := by
    rw [dispatch, hop]
  rw [handleRequest, if_neg hopen, hdispatch, handleAuthProof]
  dsimp only
  split
  · rw [if_pos (.inl (by rw [hnone]; decide))]
    exact ⟨rfl, rfl⟩
  · exact ⟨rfl, rfl⟩

/-! ## The pairing lasts -/

theorem trusts_completed {inp : Inputs} (hdistinct : Distinct s.store) (hread : Readable inp.nvs)
    (hok : (completePairing inp s).result = .ok) :
    Trusts (completePairing inp s).session.store s.pairing.clientId s.pairing.secret := by
  unfold completePairing at hok ⊢
  split at hok
  · cases hok
  · next hpending =>
    rw [if_neg hpending]
    dsimp only at hok ⊢
    split at hok
    · next herr => exact absurd hok herr
    · next herr =>
      rw [if_neg herr]
      have hstored := not_not.mp herr
      have hid := ((storeRecord_ok (s := s) s.pairing).mp hstored).1
      change Trusts (s.afterStore inp.nvs _).store _ _
      rw [(afterStore_session ..).1]
      exact trusts_stored hdistinct hread hid hstored

theorem trusts_run {later : List Event} {t : Session} (h : Trusts s.store clientId secret)
    (hC : Along (happen hmac) (Undisturbed clientId) s later)
    (hrun : run (happen hmac) s later = some t) : Trusts t.store clientId secret :=
  run_invariant (I := fun s => Trusts s.store clientId secret)
    (fun _ _ _ h hC hstep => trusts_happen h hC hstep) h hC hrun

theorem challenge_run {later : List Event} {t : Session}
    (hC : Along (happen hmac) (fun _ e => Calm e) s later)
    (hrun : run (happen hmac) s later = some t) : challenge t = challenge s :=
  run_invariant (I := fun t => challenge t = challenge s)
    (fun _ _ _ h hC hstep => (challenge_happen hC hstep).trans h) rfl hC hrun

/-- What the two requests of a client come to: the proof is taken when the client knows the
secret of its pairing, and it is taken once. -/
structure Settled (hmac : Hmac) (c : Credentials) (secret nonce : Bytes) (s : Session) : Prop where
  taken : ∀ w link id, Readable w.inputs.nvs →
    hmac.sha256 c.secret nonce = hmac.sha256 secret nonce →
    let o := handleRequest hmac w link (authProof hmac c nonce id) s
    o.session = authenticated s c.clientId ∧
      o.reply = some (sendOk Opcode.authProof.code id
        (appendAuthStatus (authenticated s c.clientId) [])) ∧
      ∀ w link id, (handleRequest hmac w link (authProof hmac c nonce id) o.session).reply =
        some (sendError Opcode.authProof.code id .invalidArg)
  refused : ∀ w link id, Readable w.inputs.nvs →
    hmac.sha256 c.secret nonce ≠ hmac.sha256 secret nonce →
    (handleRequest hmac w link (authProof hmac c nonce id) s).session = s ∧
      (handleRequest hmac w link (authProof hmac c nonce id) s).reply =
        some (sendError Opcode.authProof.code id .invalidArg)

theorem settled_of_trusts (h : Trusts s.store c.clientId secret) (husable : c.Usable)
    {nonce : Bytes} (hchallenge : challenge s = (true, c.clientId, nonce)) :
    Settled hmac c secret nonce s where
  taken w link id hread hsame := by
    have hproof := handleRequest_authProof hmac h husable hchallenge hread link id
    dsimp only at hproof ⊢
    rw [if_pos hsame] at hproof
    refine ⟨hproof.1, hproof.2, fun w link id => ?_⟩
    rw [hproof.1]
    exact (handleRequest_authProof_replayed rfl w link id).2
  refused w link id hread hdiffers := by
    have hproof := handleRequest_authProof hmac h husable hchallenge hread link id
    dsimp only at hproof
    rwa [if_neg hdiffers] at hproof

/-- **A pairing lasts.** After the pairing, whatever the task does but to revoke the client or
pair another one under its name, the client gets a challenge; and after that, whatever the
task does besides, the proof of the client is taken exactly when it knows the secret. -/
theorem pairing_lasts (hmac : Hmac) (husable : c.Usable) {inp : Inputs}
    (hdistinct : Distinct s.store) (hread : Readable inp.nvs) (hname : s.pairing.clientId = c.clientId)
    (hpaired : (completePairing inp s).result = .ok) {later between : List Event}
    {s₁ s₂ : Session}
    (hlater : Along (happen hmac) (Undisturbed c.clientId) (completePairing inp s).session later)
    (hrun : run (happen hmac) (completePairing inp s).session later = some s₁) {w : World}
    (hw : Readable w.inputs.nvs) (hnonce : w.inputs.nonce.length = authNonceLen) (link : Nat)
    (id : UInt32)
    (hbetween : Along (happen hmac) (fun s e => Undisturbed c.clientId s e ∧ Calm e)
      (handleRequest hmac w link (authChallenge c id) s₁).session between)
    (hrun' : run (happen hmac) (handleRequest hmac w link (authChallenge c id) s₁).session between =
      some s₂) :
    (∃ reply, (handleRequest hmac w link (authChallenge c id) s₁).reply = some reply ∧
        ∀ w' t id', authenticateWithCredentials hmac c (sentFrame reply w' t).decoded id' =
          some (authProof hmac c w.inputs.nonce id')) ∧
      Settled hmac c s.pairing.secret w.inputs.nonce s₂ := by
  have hstart := trusts_completed hdistinct hread hpaired
  rw [hname] at hstart
  have hkept := trusts_run hstart hlater hrun
  obtain ⟨hsession, hreply⟩ := handleRequest_authChallenge hmac hkept husable hw link id
  rw [hsession] at hbetween hrun'
  have hstill : Trusts s₂.store c.clientId s.pairing.secret :=
    trusts_run (s := challenged s₁ c.clientId w.inputs.nonce) hkept
      (hbetween.imp fun _ _ h => h.1) hrun'
  have hchallenge : challenge s₂ = (true, c.clientId, w.inputs.nonce) :=
    challenge_run (hbetween.imp fun _ _ h => h.2) hrun'
  refine ⟨⟨_, hreply, fun w' t id' => ?_⟩, settled_of_trusts hstill husable hchallenge⟩
  rw [authenticateWithCredentials, decodeAuthChallenge_reply husable hnonce, if_neg (not_not.mpr hnonce)]

/-- Client "a" with its secret, and a world with a nonce. -/
def knownClient : Credentials := ⟨ascii "a", List.replicate 32 1⟩

def nonceWorld : World :=
  { silentWorld with inputs := { silentWorld.inputs with nonce := List.replicate 16 7 } }

def pairingSession : Session :=
  { initSession (fun _ => none) 0 with
    pairing := { pending := true, clientId := ascii "a", secret := List.replicate 32 1 } }

/-- Between the pairing and the proof the link goes down and another client is revoked. -/
theorem pairing_lasts_reconnect : ∃ s₁ s₂,
    run (happen default) (completePairing nonceWorld.inputs pairingSession).session
      [⟨.message .linkDisconnected, nonceWorld⟩] = some s₁ ∧
    run (happen default) (handleRequest default nonceWorld 1 (authChallenge knownClient 1) s₁).session
      [⟨.message (.consoleRevokeClient []), nonceWorld⟩] = some s₂ ∧
    Settled default knownClient (List.replicate 32 1) (List.replicate 16 7) s₂ := by
  have husable : knownClient.Usable := ⟨by decide +kernel, by decide +kernel, by decide +kernel⟩
  have hread : Readable nonceWorld.inputs.nvs := fun _ _ => rfl
  have hlater : Along (happen default) (Undisturbed knownClient.clientId)
      (completePairing nonceWorld.inputs pairingSession).session
      [⟨.message .linkDisconnected, nonceWorld⟩] :=
    ⟨⟨hread, trivial⟩, fun _ _ => trivial⟩
  have hbetween (s : Session) : Along (happen default)
      (fun s e => Undisturbed knownClient.clientId s e ∧ Calm e) s
      [⟨.message (.consoleRevokeClient []), nonceWorld⟩] :=
    ⟨⟨⟨hread, husable.1.symm⟩, trivial⟩, fun _ _ => trivial⟩
  exact ⟨_, _, rfl, rfl, (pairing_lasts default husable distinct_empty hread rfl rfl hlater rfl hread
    rfl 1 1 (hbetween _) rfl).2⟩

end Jukeboy.CompanionApi.TrustedSession
