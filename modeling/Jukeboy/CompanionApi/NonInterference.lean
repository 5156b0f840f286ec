import Jukeboy.CompanionApi.Chunking
import Jukeboy.CompanionApi.Task

/-! # What an unauthenticated link can learn

Two runs over the same messages, the same link and the same NVS, whose other
services may differ in everything. The session never depends on the other
services, so the two runs keep it equal; a frame that goes out on a link that is
not authenticated depends on the session alone, unless it is the snapshot that
is sent at every change of link or state. -/
namespace Jukeboy.CompanionApi.NonInterference
open Jukeboy.Base Jukeboy.Base.Runs Jukeboy.CompanionApi.Tlv Jukeboy.CompanionApi.Protocol
open Jukeboy.CompanionApi.ServiceHandlers Jukeboy.CompanionApi.TrustedStore
open Jukeboy.CompanionApi.RequestHandlers Jukeboy.CompanionApi.Task
open Jukeboy.CompanionApi.Chunking (encodeRequest)
open Jukeboy.CompanionApi.RxBuffer (Request RxEvent)

/-! ## What is compared -/

/-- Timing fields, the generation and the counters. -/
def isCounter : TlvType → Bool
  | .uptimeMs | .generation | .queueFree | .rxFrames | .txFrames | .rxErrors => true
  | _ => false

def redactTlv (t : TlvEntry) : TlvEntry := if isCounter t.type then { t with value := [] } else t

/-- A frame without the values of its timing fields, generation and counters. -/
def redact (f : Frame) : Frame :=
  { f with payload := match f.payload with
      | .tlvs w => .tlvs (w.map redactTlv)
      | .echo bytes => .echo bytes }

/-- The frames that went out on a link, and how many bytes of each. -/
def observed (link : Nat) (log : List Effect) : List (Frame × Nat) :=
  log.filterMap fun
    | .sent l f bytes _ => if l = link then some (redact f, bytes) else none
    | _ => none

def authenticatedSend (link : Nat) : Effect → Bool
  | .sent l _ _ authenticated => l == link && authenticated
  | _ => false

/-- Nothing goes out on the link while the session is authenticated. -/
def NeverAuthenticated (link : Nat) (log : List Effect) : Prop :=
  ∀ e ∈ log, authenticatedSend link e = false

instance (link : Nat) (log : List Effect) : Decidable (NeverAuthenticated link log) :=
  inferInstanceAs (Decidable (∀ e ∈ log, authenticatedSend link e = false))

/-- The same message and the same environment, up to the other services, the
uptime and the free queue slots. -/
def Turn.SameInputs (a b : Turn) : Prop :=
  a.action = b.action ∧ ∀ k, (a.env k).inputs = (b.env k).inputs

/-- A frame can go out on this link. -/
def Reaches (l : Link) (link : Nat) : Prop :=
  l.connected = some link ∧ l.notificationsEnabled = true ∧ l.maxPayload ≠ 0 ∧
    l.refusedChunk ≠ some 0

instance (l : Link) (link : Nat) : Decidable (Reaches l link) :=
  inferInstanceAs (Decidable (_ ∧ _ ∧ _ ∧ _))

/-- No snapshot event is sent while a frame can go out on the link. -/
def Guarded (link : Nat) (t : Turn) : Prop :=
  match t.action with
  | .message .linkConnected | .message .linkDisconnected | .message (.stateEvent _) =>
    ¬ Reaches (t.env 0).inputs.link link
  | _ => True

theorem observed_append (link : Nat) (log more : List Effect) :
    observed link (log ++ more) = observed link log ++ observed link more :=
  List.filterMap_append

theorem NeverAuthenticated.left {link : Nat} {log more : List Effect}
    (h : NeverAuthenticated link (log ++ more)) : NeverAuthenticated link log :=
  fun e he => h e (List.mem_append_left _ he)

theorem NeverAuthenticated.right {link : Nat} {log more : List Effect}
    (h : NeverAuthenticated link (log ++ more)) : NeverAuthenticated link more :=
  fun e he => h e (List.mem_append_right _ he)

/-! ## One frame -/

/-- What sending a frame adds to the log. -/
def sentEffects (l : Link) (f : Frame) (authenticated : Bool) : List Effect :=
  match l.connected with
  | none => []
  | some link =>
    if acceptedBytes l (headerLen + payloadLen f.payload) = 0 then []
    else [.sent link f (acceptedBytes l (headerLen + payloadLen f.payload)) authenticated]

theorem sendFrame_log (l : Link) (f : Frame) (s : State) :
    (sendFrame l f s).log = s.log ++ sentEffects l f s.session.authenticated := by
  unfold sendFrame sentEffects
  cases l.connected with
  | none => exact (List.append_nil _).symm
  | some link =>
    by_cases hbytes : acceptedBytes l (headerLen + payloadLen f.payload) = 0
    · simp [hbytes]
    · simp [hbytes]

/-- A frame that cannot go out on the link is not observed there. -/
theorem observed_of_not_reaches {l : Link} {link : Nat} (h : ¬ Reaches l link) (f : Frame)
    (authenticated : Bool) : observed link (sentEffects l f authenticated) = [] := by
  unfold sentEffects
  split
  · rfl
  next l' hl =>
  split
  · rfl
  next hbytes =>
  have hne : l' ≠ link := by
    rintro rfl
    refine hbytes ?_
    unfold acceptedBytes
    by_cases hn : l.notificationsEnabled = true
    · by_cases hm : l.maxPayload = 0
      · simp [hm]
      · have hz : l.refusedChunk = some 0 := by
          by_contra hne
          exact h ⟨hl, hn, hm, hne⟩
        simp [hz]
    · simp [hn]
  simp [observed, hne]

/-- What a link that is never authenticated sees of an authenticated session. -/
theorem observed_of_authenticated {l : Link} {link : Nat} {f : Frame}
    (h : NeverAuthenticated link (sentEffects l f true)) :
    observed link (sentEffects l f true) = [] := by
  unfold sentEffects at h ⊢
  split at h
  · rfl
  split at h
  · next hbytes => simp [hbytes, observed]
  next l' _ hbytes =>
  have hne : l' ≠ link := by
    rintro rfl
    have := h _ (List.mem_singleton_self _)
    simp [authenticatedSend] at this
  simp [hbytes, observed, hne]

/-- Frames of the same size that differ in timing fields and counters only. -/
structure Alike (f g : Frame) : Prop where
  redacted : redact f = redact g
  sized : payloadLen f.payload = payloadLen g.payload

theorem Alike.refl (f : Frame) : Alike f f := ⟨rfl, rfl⟩

theorem Alike.observed_eq {f g : Frame} (h : Alike f g) (l : Link) (link : Nat)
    (authenticated : Bool) :
    observed link (sentEffects l f authenticated) =
      observed link (sentEffects l g authenticated) := by
  unfold sentEffects
  rw [h.sized]
  split
  · rfl
  split
  · rfl
  · simp only [observed, List.filterMap_cons, h.redacted]

/-! ## States -/

/-- Two states that differ, for a link, in what it may not see only. -/
structure Same (link : Nat) (s t : State) : Prop where
  session : s.session = t.session
  rxBuffer : s.rxBuffer = t.rxBuffer
  nextHeartbeat : s.nextHeartbeat = t.nextHeartbeat
  observed : observed link s.log = observed link t.log

/-- The frames a reply adds to the log. -/
def replyEffects (w : World) (o : Outcome) (s : State) : List Effect :=
  match o.reply with
  | none => []
  | some r => sentEffects w.inputs.link (replyFrame r w (applyOutcome o s)) o.session.authenticated

theorem finish_log (w : World) (o : Outcome) (s : State) :
    (finish w o s).log = s.log ++ o.effects ++ replyEffects w o s := by
  unfold finish replyEffects
  cases o.reply with
  | none => exact (List.append_nil _).symm
  | some r => exact sendFrame_log _ _ _

/-- The handlers themselves send nothing. -/
def Silent (effects : List Effect) : Prop :=
  ∀ e ∈ effects, ∀ l f n a, e ≠ .sent l f n a

theorem Silent.observed {effects : List Effect} (h : Silent effects) (link : Nat) :
    observed link effects = [] := by
  refine List.filterMap_eq_nil_iff.mpr fun e he => ?_
  cases e with
  | sent l f n a => exact absurd rfl (h _ he l f n a)
  | _ => rfl

theorem Same.finish {link : Nat} {s t : State} {w v : World} {o p : Outcome} (h : Same link s t)
    (hsession : o.session = p.session) (ho : Silent o.effects) (hp : Silent p.effects)
    (hreply : NonInterference.observed link (replyEffects w o s) =
      NonInterference.observed link (replyEffects v p t)) :
    Same link (Task.finish w o s) (Task.finish v p t) := by
  obtain ⟨hs, hsb, hsn⟩ := finish_frame w o s
  obtain ⟨ht, htb, htn⟩ := finish_frame v p t
  refine ⟨?_, ?_, ?_, ?_⟩
  · rw [hs, ht, hsession]
  · rw [hsb, htb, h.rxBuffer]
  · rw [hsn, htn, h.nextHeartbeat]
  · rw [finish_log, finish_log, observed_append, observed_append, observed_append, observed_append,
      ho.observed, hp.observed, h.observed, hreply]

/-- An outcome that sends nothing but a reply without a snapshot. -/
structure Blind (o : Outcome) : Prop where
  silent : Silent o.effects
  plain : ∀ r, o.reply = some r → ∃ p, r.body = .payload p

theorem replyEffects_of_blind {w v : World} (hw : w.inputs = v.inputs) {o : Outcome}
    (ho : Blind o) (s t : State) : replyEffects w o s = replyEffects v o t := by
  unfold replyEffects
  split
  · rfl
  next r hr =>
  obtain ⟨p, hp⟩ := ho.plain r hr
  simp only [replyFrame, hp, hw]

/-- The same blind outcome in both runs. -/
theorem Same.finish_blind {link : Nat} {s t : State} {w v : World} {o : Outcome}
    (h : Same link s t) (hw : w.inputs = v.inputs) (ho : Blind o) :
    Same link (Task.finish w o s) (Task.finish v o t) :=
  h.finish rfl ho.silent ho.silent (congrArg _ (replyEffects_of_blind hw ho s t))

/-- Whatever is sent, when it does not reach the link. -/
theorem observed_reply_of_not_reaches {link : Nat} {w : World} (h : ¬ Reaches w.inputs.link link)
    (o : Outcome) (s : State) : observed link (replyEffects w o s) = [] := by
  unfold replyEffects
  split
  · rfl
  · exact observed_of_not_reaches h _ _

/-- Whatever is sent in an authenticated session, when nothing of it may reach the link. -/
theorem observed_reply_of_authenticated {link : Nat} {w : World} {o : Outcome} {s : State}
    (ha : o.session.authenticated = true)
    (h : NeverAuthenticated link (Task.finish w o s).log) :
    observed link (replyEffects w o s) = [] := by
  rw [finish_log] at h
  have hlast := h.right
  cases hr : o.reply with
  | none => simp only [replyEffects, hr, observed, List.filterMap_nil]
  | some r =>
    simp only [replyEffects, hr, ha] at hlast ⊢
    exact observed_of_authenticated hlast

/-! ## Requests -/

theorem silent_nil : Silent [] := by
  intro e he
  cases he

theorem blind_say (s : Session) (type : FrameType) (opcode : UInt16) (requestId : UInt32)
    (p : Payload) : Blind (.say s ⟨type, opcode, requestId, .payload p⟩) := by
  refine ⟨silent_nil, fun r hr => ⟨p, ?_⟩⟩
  obtain rfl := Option.some.inj hr
  rfl

theorem blind_handlePairBegin (inp : Inputs) (l : Nat) (r : Request) (s : Session) :
    Blind (handlePairBegin inp l r s) := by
  unfold handlePairBegin
  split
  · split
    · exact blind_say ..
    split
    · exact blind_say ..
    · exact ⟨by simp [Silent], by simp [sendPairingStatus]⟩
  · exact blind_say ..

theorem blind_cancelPairing (requestId : UInt32) (type : FrameType) (s : Session) :
    Blind (cancelPairing requestId type s) :=
  ⟨by simp [Silent, cancelPairing], by simp [cancelPairing, sendPairingStatus]⟩

theorem blind_handleAuthChallenge (inp : Inputs) (r : Request) (s : Session) :
    Blind (handleAuthChallenge inp r s) := by
  unfold handleAuthChallenge
  split
  · exact blind_say ..
  · split
    · exact blind_say ..
    · exact ⟨by simp [Silent], by simp [sendOk]⟩

theorem blind_handleAuthProof (hmac : Hmac) (inp : Inputs) (l : Nat) (r : Request) (s : Session) :
    Blind (handleAuthProof hmac inp l r s) := by
  unfold handleAuthProof
  split
  · split
    · exact blind_say ..
    split
    · exact blind_say ..
    dsimp only
    split
    · exact blind_say ..
    · exact ⟨by simp [Silent], by simp [sendOk]⟩
  · exact blind_say ..

theorem blind_revokeClientInternal (inp : Inputs) (clientId : Bytes) (s : Session) :
    Blind (revokeClientInternal inp clientId s) :=
  ⟨silent_nil, fun _ hr => (by cases hr)⟩

theorem blind_handleTrustedRevoke (inp : Inputs) (r : Request) (s : Session) :
    Blind (handleTrustedRevoke inp r s) := by
  unfold handleTrustedRevoke
  split
  · exact blind_say ..
  · dsimp only
    split
    · exact ⟨silent_nil, by simp [sendError]⟩
    · exact ⟨silent_nil, by simp [handleTrustedList, Outcome.say, sendOk]⟩

theorem blind_completePairing (inp : Inputs) (s : Session) : Blind (completePairing inp s) := by
  unfold completePairing
  split
  · exact ⟨silent_nil, fun _ hr => (by cases hr)⟩
  dsimp only
  split
  · exact ⟨silent_nil, fun _ hr => (by cases hr)⟩
  · exact ⟨by simp [Silent], by simp [sendPairingStatus]⟩

theorem blind_applyPairingButton (inp : Inputs) (button : UInt8) (s : Session) :
    Blind (applyPairingButton inp button s) := by
  unfold applyPairingButton
  dsimp only
  split
  · exact ⟨silent_nil, fun _ hr => (by cases hr)⟩
  split
  · exact ⟨by simp [Silent], fun _ hr => (by cases hr)⟩
  split
  · exact ⟨silent_nil, by simp [sendPairingStatus]⟩
  split
  · have hb := blind_completePairing inp
      { s with pairing := { s.pairing with progress := s.pairing.progress + 1 } }
    exact ⟨hb.silent, hb.plain⟩
  · exact ⟨silent_nil, by simp [sendPairingStatus]⟩

/-- **The dispatcher.** A request is handled without a look at the other
services, or it requires authentication and leaves the session as it is. -/
theorem dispatch_cases (hmac : Hmac) {w v : World} (hw : w.inputs = v.inputs) (l : Nat)
    (r : Request) (s : Session) :
    (dispatch hmac w l r s = dispatch hmac v l r s ∧ Blind (dispatch hmac w l r s)) ∨
      (opcodeRequiresAuth r.opcode = true ∧ ∃ a b,
        dispatch hmac w l r s = answerOutcome a r s ∧
        dispatch hmac v l r s = answerOutcome b r s) := by
  unfold dispatch opcodeRequiresAuth
  rw [hw]
  cases Opcode.ofCode r.opcode with
  | none => exact .inl ⟨rfl, blind_say ..⟩
  | some op =>
    cases op with
    | hello | capabilities | pairStatus | trustedList => exact .inl ⟨rfl, blind_say ..⟩
    | ping =>
      refine .inl ⟨rfl, ?_⟩
      change Blind (handlePing r s)
      unfold handlePing
      split
      · exact blind_say ..
      · exact blind_say ..
    | pairBegin => exact .inl ⟨rfl, blind_handlePairBegin ..⟩
    | pairCancel => exact .inl ⟨rfl, blind_cancelPairing ..⟩
    | authChallenge => exact .inl ⟨rfl, blind_handleAuthChallenge ..⟩
    | authProof => exact .inl ⟨rfl, blind_handleAuthProof ..⟩
    | trustedRevoke => exact .inl ⟨rfl, blind_handleTrustedRevoke ..⟩
    | _ => exact .inr ⟨rfl, _, _, rfl, rfl⟩

theorem NeverAuthenticated.of_finish {link : Nat} {w : World} {o : Outcome} {s : State}
    (h : NeverAuthenticated link (finish w o s).log) : NeverAuthenticated link s.log := by
  rw [finish_log] at h
  exact h.left.left

theorem Same.request {link : Nat} {s t : State} {w v : World} (h : Same link s t)
    (hw : w.inputs = v.inputs) (hmac : Hmac) (l : Nat) (r : Request)
    (hs : NeverAuthenticated link (Task.finish w (handleRequest hmac w l r s.session) s).log)
    (ht : NeverAuthenticated link (Task.finish v (handleRequest hmac v l r t.session) t).log) :
    Same link (Task.finish w (handleRequest hmac w l r s.session) s)
      (Task.finish v (handleRequest hmac v l r t.session) t) := by
  rw [← h.session] at ht ⊢
  unfold handleRequest at hs ht ⊢
  by_cases hauth : opcodeRequiresAuth r.opcode = true ∧ ¬ s.session.authenticated = true
  · simp only [if_pos hauth]
    exact h.finish_blind hw (blind_say ..)
  simp only [if_neg hauth] at hs ht ⊢
  rcases dispatch_cases hmac hw l r s.session with ⟨heq, hblind⟩ | ⟨hop, a, b, ha, hb⟩
  · rw [← heq]
    refine h.finish_blind hw ⟨?_, hblind.plain⟩
    intro e he
    rcases List.mem_cons.mp he with rfl | he
    · simp
    · exact hblind.silent e he
  · have hauthd : s.session.authenticated = true := by
      by_contra hno
      exact hauth ⟨hop, hno⟩
    rw [ha] at hs
    rw [hb] at ht
    rw [ha, hb]
    refine h.finish rfl ?_ ?_ ?_
    · simp [Silent, answerOutcome]
    · simp [Silent, answerOutcome]
    · rw [observed_reply_of_authenticated hauthd hs, observed_reply_of_authenticated hauthd ht]

/-! ## The receive path -/

theorem NeverAuthenticated.of_rxEvent {link : Nat} {hmac : Hmac} {w : World} {l : Nat}
    {event : RxEvent} {s : State} (h : NeverAuthenticated link (applyRxEvent hmac w l event s).log) :
    NeverAuthenticated link s.log := by
  cases event with
  | overflow => exact @NeverAuthenticated.of_finish _ _ _ (countRxError s) h
  | resync => exact h
  | sendError opcode requestId e => exact NeverAuthenticated.of_finish h
  | request r => exact NeverAuthenticated.of_finish h

theorem NeverAuthenticated.of_rxEvents {link : Nat} {hmac : Hmac} {env : Nat → World} {l k : Nat}
    {events : List RxEvent} {s : State}
    (h : NeverAuthenticated link (applyRxEvents hmac env l k events s).log) :
    NeverAuthenticated link s.log := by
  induction events generalizing k s with
  | nil => exact h
  | cons event events ih => exact NeverAuthenticated.of_rxEvent (ih h)

theorem Same.rxEvent {link : Nat} {s t : State} {w v : World} (h : Same link s t)
    (hw : w.inputs = v.inputs) (hmac : Hmac) (l : Nat) (event : RxEvent)
    (hs : NeverAuthenticated link (applyRxEvent hmac w l event s).log)
    (ht : NeverAuthenticated link (applyRxEvent hmac v l event t).log) :
    Same link (applyRxEvent hmac w l event s) (applyRxEvent hmac v l event t) := by
  cases event with
  | overflow =>
    have hcount : Same link (countRxError s) (countRxError t) :=
      ⟨h.session, h.rxBuffer, h.nextHeartbeat, h.observed⟩
    have hsession : (countRxError t).session = (countRxError s).session := h.session.symm
    simp only [applyRxEvent, hsession]
    exact hcount.finish_blind hw (blind_say ..)
  | resync => exact ⟨h.session, h.rxBuffer, h.nextHeartbeat, h.observed⟩
  | sendError opcode requestId e =>
    simp only [applyRxEvent, ← h.session]
    exact h.finish_blind hw (blind_say ..)
  | request r =>
    have hr := h.request hw hmac l r hs ht
    exact ⟨hr.session, hr.rxBuffer, hr.nextHeartbeat, hr.observed⟩

theorem Same.rxEvents {link : Nat} {hmac : Hmac} {env env' : Nat → World} {l : Nat}
    (hw : ∀ k, (env k).inputs = (env' k).inputs) (events : List RxEvent) (k : Nat) {s t : State}
    (h : Same link s t)
    (hs : NeverAuthenticated link (applyRxEvents hmac env l k events s).log)
    (ht : NeverAuthenticated link (applyRxEvents hmac env' l k events t).log) :
    Same link (applyRxEvents hmac env l k events s) (applyRxEvents hmac env' l k events t) := by
  induction events generalizing k s t with
  | nil => exact h
  | cons event events ih =>
    have hstep := h.rxEvent (hw k) hmac l event (NeverAuthenticated.of_rxEvents hs)
      (NeverAuthenticated.of_rxEvents ht)
    exact ih (k + 1) hstep hs ht

theorem NeverAuthenticated.of_receiveChunk {link : Nat} {hmac : Hmac} {env : Nat → World} {l : Nat}
    {bytes : Bytes} {s : State} (h : NeverAuthenticated link (receiveChunk hmac env l bytes s).log) :
    NeverAuthenticated link s.log := by
  have hrec := NeverAuthenticated.of_rxEvents (s := { s with log := s.log ++ [.received l] }) h
  exact hrec.left

theorem Same.receiveChunk {link : Nat} {hmac : Hmac} {env env' : Nat → World} {l : Nat}
    (hw : ∀ k, (env k).inputs = (env' k).inputs) (bytes : Bytes) {s t : State} (h : Same link s t)
    (hs : NeverAuthenticated link (receiveChunk hmac env l bytes s).log)
    (ht : NeverAuthenticated link (receiveChunk hmac env' l bytes t).log) :
    Same link (Task.receiveChunk hmac env l bytes s) (Task.receiveChunk hmac env' l bytes t) := by
  have hrec : Same link { s with log := s.log ++ [.received l] }
      { t with log := t.log ++ [.received l] } := by
    refine ⟨h.session, h.rxBuffer, h.nextHeartbeat, ?_⟩
    rw [observed_append, observed_append, h.observed]
  have hbytes : RxBuffer.handleRxChunk t.rxBuffer bytes =
      RxBuffer.handleRxChunk s.rxBuffer bytes := by rw [h.rxBuffer]
  simp only [Task.receiveChunk, hbytes] at hs ht ⊢
  have hev := hrec.rxEvents hw _ 0 hs ht
  exact ⟨hev.session, rfl, hev.nextHeartbeat, hev.observed⟩

/-! ## Messages and the timer -/

theorem Same.message {link : Nat} {hmac : Hmac} {env env' : Nat → World} {m : Msg}
    (hw : ∀ k, (env k).inputs = (env' k).inputs) (hg : Guarded link ⟨.message m, env⟩)
    {s t : State} (h : Same link s t)
    (hs : NeverAuthenticated link (processMsg hmac env m s).log)
    (ht : NeverAuthenticated link (processMsg hmac env' m t).log) :
    Same link (processMsg hmac env m s) (processMsg hmac env' m t) := by
  have hbuf : ∀ buffer, Same link { s with rxBuffer := buffer } { t with rxBuffer := buffer } :=
    fun buffer => ⟨h.session, rfl, h.nextHeartbeat, h.observed⟩
  have hblind : ∀ buffer o, Blind o → Same link
      (Task.finish (env 0) o { s with rxBuffer := buffer })
      (Task.finish (env' 0) o { t with rxBuffer := buffer }) :=
    fun buffer o ho => (hbuf buffer).finish_blind (hw 0) ho
  have hsnapshot : ∀ buffer opcode s', ¬ Reaches (env 0).inputs.link link → Same link
      (Task.finish (env 0) (snapshotEvent opcode s') { s with rxBuffer := buffer })
      (Task.finish (env' 0) (snapshotEvent opcode s') { t with rxBuffer := buffer }) := by
    intro buffer opcode s' hno
    refine (hbuf buffer).finish rfl silent_nil silent_nil ?_
    rw [observed_reply_of_not_reaches hno, observed_reply_of_not_reaches (hw 0 ▸ hno)]
  cases m with
  | rxChunk l bytes => exact h.receiveChunk hw bytes hs ht
  | hidButton button =>
    simp only [processMsg, msgOutcome, msgRxBuffer, ← h.session, ← h.rxBuffer, ← hw 0]
    exact hblind _ _ (blind_applyPairingButton ..)
  | consoleConfirmPairing =>
    simp only [processMsg, msgOutcome, msgRxBuffer, ← h.session, ← h.rxBuffer, ← hw 0]
    exact hblind _ _ (blind_completePairing ..)
  | consoleCancelPairing =>
    simp only [processMsg, msgOutcome, msgRxBuffer, ← h.session, ← h.rxBuffer]
    exact hblind _ _ (blind_cancelPairing ..)
  | consoleRevokeClient clientId =>
    simp only [processMsg, msgOutcome, msgRxBuffer, ← h.session, ← h.rxBuffer, ← hw 0]
    exact hblind _ _ (blind_revokeClientInternal ..)
  | consoleRevokeAll =>
    simp only [processMsg, msgOutcome, msgRxBuffer, ← h.session, ← h.rxBuffer, ← hw 0]
    exact hblind _ _ ⟨silent_nil, fun _ hr => (by cases hr)⟩
  | linkConnected =>
    simp only [processMsg, msgOutcome, msgRxBuffer, ← h.session]
    exact hsnapshot _ _ _ hg
  | linkDisconnected =>
    simp only [processMsg, msgOutcome, msgRxBuffer, ← h.session]
    exact hsnapshot _ _ _ hg
  | stateEvent opcode =>
    simp only [processMsg, msgOutcome, msgRxBuffer, ← h.session, ← h.rxBuffer]
    exact hsnapshot _ _ _ hg

/-- TLVs of the same size that differ in the value of a counter only. -/
def AlikeTlv (a b : TlvEntry) : Prop :=
  redactTlv a = redactTlv b ∧ a.value.length = b.value.length

theorem len_eq_of_alike {w w' : Writer} (h : List.Forall₂ AlikeTlv w w') :
    Writer.len w = Writer.len w' := by
  induction h with
  | nil => rfl
  | cons hab _ ih =>
    simp only [Writer.len, List.map_cons, List.sum_cons, TlvEntry.size, hab.2] at ih ⊢
    rw [ih]

theorem append_alike {w w' : Writer} (h : List.Forall₂ AlikeTlv w w') {type : TlvType}
    {v v' : Bytes} (hv : AlikeTlv ⟨type, v⟩ ⟨type, v'⟩) :
    List.Forall₂ AlikeTlv (append w type v) (append w' type v') := by
  unfold append tryAppend
  rw [len_eq_of_alike h, show v.length = v'.length from hv.2]
  split
  · exact h
  · exact List.rel_append h (.cons hv .nil)

theorem appendAll_alike {w w' : Writer} (h : List.Forall₂ AlikeTlv w w')
    {entries entries' : List (TlvType × Bytes)}
    (he : List.Forall₂ (fun a b => a.1 = b.1 ∧ AlikeTlv ⟨a.1, a.2⟩ ⟨b.1, b.2⟩) entries entries') :
    List.Forall₂ AlikeTlv (appendAll w entries) (appendAll w' entries') := by
  induction he generalizing w w' with
  | nil => exact h
  | @cons a b _ _ hab _ ih =>
    obtain ⟨type, v⟩ := a
    obtain ⟨type', v'⟩ := b
    obtain ⟨rfl, hv⟩ := hab
    exact ih (append_alike h hv)

theorem redact_eq_of_alike {w w' : Writer} (h : List.Forall₂ AlikeTlv w w') :
    w.map redactTlv = w'.map redactTlv := by
  induction h with
  | nil => rfl
  | cons hab _ ih => rw [List.map_cons, List.map_cons, hab.1, ih]

theorem heartbeatTlvs_alike {s t : State} (h : s.session = t.session) (w v : World) :
    List.Forall₂ AlikeTlv (heartbeatTlvs w s) (heartbeatTlvs v t) := by
  refine appendAll_alike .nil ?_
  simp [AlikeTlv, redactTlv, isCounter, h]

theorem Same.heartbeat {link : Nat} {s t : State} {w v : World} (h : Same link s t)
    (hw : w.inputs = v.inputs) : Same link (sendHeartbeat w s) (sendHeartbeat v t) := by
  refine h.finish h.session silent_nil silent_nil ?_
  have halike := heartbeatTlvs_alike h.session w v
  have hframes : Alike
      ⟨.heartbeat, Opcode.snapshot.code, 0, .tlvs (heartbeatTlvs w s)⟩
      ⟨.heartbeat, Opcode.snapshot.code, 0, .tlvs (heartbeatTlvs v t)⟩ := by
    refine ⟨?_, len_eq_of_alike halike⟩
    simp only [redact, redact_eq_of_alike halike]
  simp only [replyEffects, Outcome.say, replyFrame, h.session, hw]
  exact hframes.observed_eq _ _ _

theorem Same.timer {link : Nat} {env env' : Nat → World}
    (hw : ∀ k, (env k).inputs = (env' k).inputs) {s t : State} (h : Same link s t) :
    Same link (timerTurn env s) (timerTurn env' t) := by
  have hexpire : Same link (expirePairing (env 0) s) (expirePairing (env' 0) t) := by
    unfold expirePairing
    rw [← h.session, ← hw 0]
    split
    · exact h.finish_blind (hw 0) (blind_cancelPairing ..)
    · exact h
  have hbeat := hexpire.heartbeat (hw 1)
  unfold timerTurn
  rw [← hw 0, ← h.nextHeartbeat]
  dsimp only
  split
  · exact ⟨hbeat.session, hbeat.rxBuffer, rfl, hbeat.observed⟩
  · exact h

/-! ## Runs -/

theorem NeverAuthenticated.of_step {link : Nat} {hmac : Hmac} {s t : State} {a : Turn}
    (hstep : step hmac s a = some t) (h : NeverAuthenticated link t.log) :
    NeverAuthenticated link s.log := by
  obtain ⟨action, env⟩ := a
  obtain rfl := Option.some.inj hstep
  cases action with
  | timer =>
    simp only [timerTurn] at h
    split at h
    · have hexpire : NeverAuthenticated link (expirePairing (env 0) s).log :=
        NeverAuthenticated.of_finish h
      unfold expirePairing at hexpire
      split at hexpire
      · exact hexpire.of_finish
      · exact hexpire
    · exact h
  | message m =>
    cases m with
    | rxChunk l bytes => exact NeverAuthenticated.of_receiveChunk h
    | _ =>
      simp only [processMsg] at h
      exact @NeverAuthenticated.of_finish _ _ _
        { s with rxBuffer := msgRxBuffer s.rxBuffer _ } h

/-- The relation the two runs keep: while the link has not been authenticated in
either, the states agree in all it may see. -/
def Indistinct (link : Nat) (s t : State) : Prop :=
  NeverAuthenticated link s.log → NeverAuthenticated link t.log → Same link s t

theorem step_indistinct {link : Nat} {hmac : Hmac} {s t s' t' : State} {a b : Turn}
    (h : Indistinct link s t) (hab : Guarded link a ∧ Turn.SameInputs a b)
    (hs : step hmac s a = some s') (ht : step hmac t b = some t') : Indistinct link s' t' := by
  intro hs' ht'
  have hsame := h (NeverAuthenticated.of_step hs hs') (NeverAuthenticated.of_step ht ht')
  obtain ⟨action, env⟩ := a
  obtain ⟨action', env'⟩ := b
  obtain ⟨hg, rfl, hw⟩ := hab
  obtain rfl := Option.some.inj hs
  obtain rfl := Option.some.inj ht
  cases action with
  | timer => exact hsame.timer hw
  | message m => exact hsame.message hw hg hs' ht'

/-- **Unauthenticated links learn nothing.** Two runs with the same messages and
the same inputs, whatever the other services hold in each: what goes out on a
link that is never authenticated is the same, up to timing fields, generation
and counters, as long as no snapshot event is sent while a frame can go out on
it. -/
theorem unauthenticated_link_learns_nothing (hmac : Hmac) (link : Nat) (store : Store)
    (count : UInt8) (now : UInt32) {turns turns' : List Turn} {s t : State}
    (hsame : List.Forall₂ Turn.SameInputs turns turns') (hguarded : ∀ a ∈ turns, Guarded link a)
    (hs : run (step hmac) (initState store count now) turns = some s)
    (ht : run (step hmac) (initState store count now) turns' = some t)
    (hsnever : NeverAuthenticated link s.log) (htnever : NeverAuthenticated link t.log) :
    observed link s.log = observed link t.log := by
  have hpairs : List.Forall₂ (fun a b => Guarded link a ∧ Turn.SameInputs a b) turns turns' :=
    (List.forall₂_and_left ..).mpr ⟨hguarded, hsame⟩
  have hinit : Indistinct link (initState store count now) (initState store count now) :=
    fun _ _ => ⟨rfl, rfl, rfl, rfl⟩
  exact (run_related (fun _ _ _ _ _ _ => step_indistinct) hinit hpairs hs ht hsnever
    htnever).observed

/-! ## Two runs

A link that is up and listening, with a player that plays one title or another. -/

def listeningWorld (title : String) (uptimeMs : UInt32) : World :=
  { inputs :=
      { link := { connected := some 1, notificationsEnabled := true, mtu := 247, maxPayload := 244
                  refusedChunk := none }
        now := 600, time := 0, nonce := [], nvs := .working }
    services := { (default : Services) with
      playerSnapshot := some { (default : PlayerSnapshot) with trackTitle := ascii title } }
    uptimeMs, queueFree := 16 }

/-- A greeting and a request for the snapshot, and then a heartbeat. -/
def greetAndAsk (title : String) (uptimeMs : UInt32) : List Turn :=
  [⟨.message (.rxChunk 1 (encodeRequest ⟨Opcode.hello.code, 1, []⟩ ++
      encodeRequest ⟨Opcode.snapshot.code, 2, []⟩)), fun _ => listeningWorld title uptimeMs⟩,
    ⟨.timer, fun _ => listeningWorld title uptimeMs⟩]

/-- The player reports a change. -/
def playerEvent (title : String) : List Turn :=
  [⟨.message (.stateEvent Opcode.playbackStatus.code), fun _ => listeningWorld title 1000⟩]

/-- The title that plays does not show. -/
theorem unauthenticated_link_learns_nothing_greeting :
    ∃ s t, run (step default) (initState (fun _ => none) 0 0) (greetAndAsk "one" 1000) = some s ∧
      run (step default) (initState (fun _ => none) 0 0) (greetAndAsk "two" 2000) = some t ∧
      (observed 1 s.log).length = 3 ∧ observed 1 s.log = observed 1 t.log := by
  have hone : ((run (step default) (initState (fun _ => none) 0 0) (greetAndAsk "one" 1000)).map
      fun s => (decide (NeverAuthenticated 1 s.log), (observed 1 s.log).length)) =
        some (true, 3) := by decide +kernel
  have htwo : ((run (step default) (initState (fun _ => none) 0 0) (greetAndAsk "two" 2000)).map
      fun s => decide (NeverAuthenticated 1 s.log)) = some true := by decide +kernel
  obtain ⟨s, hs, hsees⟩ := Option.map_eq_some_iff.mp hone
  obtain ⟨t, ht, htnever⟩ := Option.map_eq_some_iff.mp htwo
  obtain ⟨hsnever, hcount⟩ := Prod.mk.inj hsees
  have hsame : List.Forall₂ Turn.SameInputs (greetAndAsk "one" 1000) (greetAndAsk "two" 2000) :=
    .cons ⟨rfl, fun _ => rfl⟩ (.cons ⟨rfl, fun _ => rfl⟩ .nil)
  have hguarded : ∀ a ∈ greetAndAsk "one" 1000, Guarded 1 a := by
    intro a ha
    rcases List.mem_pair.mp ha with rfl | rfl
    · trivial
    · trivial
  exact ⟨s, t, hs, ht, hcount, unauthenticated_link_learns_nothing default 1 (fun _ => none) 0 0
    hsame hguarded hs ht (of_decide_eq_true hsnever) (of_decide_eq_true htnever)⟩

/-- A state event shows it to a link that has done nothing but connect. -/
theorem snapshot_event_tells :
    ¬ ∀ (hmac : Hmac) (link : Nat) (store : Store) (count : UInt8) (now : UInt32)
      (turns turns' : List Turn) (s t : State), List.Forall₂ Turn.SameInputs turns turns' →
      run (step hmac) (initState store count now) turns = some s →
      run (step hmac) (initState store count now) turns' = some t →
      NeverAuthenticated link s.log → NeverAuthenticated link t.log →
      observed link s.log = observed link t.log := by
  intro h
  have hruns : ((run (step default) (initState (fun _ => none) 0 0) (playerEvent "one")).bind
      fun s => (run (step default) (initState (fun _ => none) 0 0) (playerEvent "two")).map
        fun t => (decide (NeverAuthenticated 1 s.log ∧ NeverAuthenticated 1 t.log),
          decide (observed 1 s.log = observed 1 t.log))) = some (true, false) := by
    decide +kernel
  obtain ⟨s, hs, ht⟩ := Option.bind_eq_some_iff.mp hruns
  obtain ⟨t, ht, hsees⟩ := Option.map_eq_some_iff.mp ht
  obtain ⟨hnever, hdiffer⟩ := Prod.mk.inj hsees
  obtain ⟨hsnever, htnever⟩ := of_decide_eq_true hnever
  exact of_decide_eq_false hdiffer
    (h default 1 (fun _ => none) 0 0 (playerEvent "one") (playerEvent "two") s t
      (.cons ⟨rfl, fun _ => rfl⟩ .nil) hs ht hsnever htnever)

end Jukeboy.CompanionApi.NonInterference
