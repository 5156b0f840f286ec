import Mathlib.Data.List.Perm.Basic
import Mathlib.Data.List.Range
import Jukeboy.CompanionApi.Rpc

/-! # Every request ends once

Over the wire every request that the client makes ends exactly once: with a timeout, or
with what the handler said to this request and to no other. -/
namespace Jukeboy.CompanionApi.Rpc

open Jukeboy.Base Jukeboy.Base.Runs
open Jukeboy.CompanionApi.Tlv Jukeboy.CompanionApi.Protocol Jukeboy.CompanionApi.RequestHandlers
open Jukeboy.CompanionApi.TrustedStore Jukeboy.CompanionApi.Task Jukeboy.CompanionApi.Replies
open Jukeboy.CompanionApi.BleClient
open Jukeboy.CompanionApi.RxBuffer (Request)

/-! ## One request ends -/

def requestIds (l : List Request) : List Nat := l.map (·.requestId.toNat)

/-- The ids whose request has timed out. -/
def expired (pending : List (Nat × Bool)) : List Nat := (pending.filter (·.2)).map Prod.fst

theorem expired_middle (before : List (Nat × Bool)) (id : Nat) (done : Bool)
    (after : List (Nat × Bool)) : expired (before ++ (id, done) :: after) =
      expired before ++ ((if done then [id] else []) ++ expired after) := by
  unfold expired
  rw [List.filter_append, List.map_append]
  cases done with
  | false => rfl
  | true => rfl

section Requests

variable {r : Requests} {id : Nat} {before after : List (Nat × Bool)}

/-- The only entry for its id. -/
structure Lists (r : Requests) (before : List (Nat × Bool)) (id : Nat) (done : Bool)
    (after : List (Nat × Bool)) : Prop where
  pending : r.pending = before ++ (id, done) :: after
  before : id ∉ before.map Prod.fst
  after : id ∉ after.map Prod.fst

theorem lists_of_nodup {done : Bool} (h : r.pending = before ++ (id, done) :: after)
    (hnodup : (r.pending.map Prod.fst).Nodup) : Lists r before id done after := by
  rw [h, List.map_append, List.map_cons, List.nodup_middle, List.nodup_cons, List.mem_append,
    not_or] at hnodup
  exact ⟨h, hnodup.1.1, hnodup.1.2⟩

variable {done : Bool} (h : Lists r before id done after)

include h

theorem Lists.waits_eq : r.waits id = !done := by
  obtain ⟨hpending, hbefore, hafter⟩ := h
  have hnot : ∀ l : List (Nat × Bool), id ∉ l.map Prod.fst → ∀ b, (id, b) ∉ l :=
    fun l hl b hmem => hl (List.mem_map.mpr ⟨_, hmem, rfl⟩)
  unfold Requests.waits
  rw [hpending]
  cases done with
  | false => simp
  | true => simp [hnot before hbefore false, hnot after hafter false]

theorem Lists.finish_eq (answer : BleClient.Answer) : r.finish id answer = { r with
    answers := if done then r.answers else r.answers ++ [(id, answer)] } := by
  unfold Requests.finish
  rw [h.waits_eq]
  cases done with
  | false => rfl
  | true => rfl

/-- The frame that ends a request takes its entry away. -/
theorem Lists.receive_eq {frame : ClientFrame} (hid : frame.requestId.toNat = id)
    (htype : frame.frameType = .response ∨ frame.frameType = .error) :
    r.receive frame = { r with
      pending := before ++ after
      answers := if done then r.answers
        else r.answers ++ [(id, Requests.answerOf frame)] } := by
  have hkeep : ∀ l : List (Nat × Bool), id ∉ l.map Prod.fst → l.filter (·.1 ≠ id) = l := by
    intro l hl
    refine List.filter_eq_self.mpr fun p hp => decide_eq_true ?_
    intro heq
    exact hl (List.mem_map.mpr ⟨p, hp, heq⟩)
  have hlisted : frame.requestId.toNat ∈ r.pending.map Prod.fst := by
    rw [hid, h.pending]
    simp
  have hfilter : r.pending.filter (·.1 ≠ id) = before ++ after := by
    rw [h.pending, List.filter_append, hkeep before h.before,
      List.filter_cons_of_neg (by simp), hkeep after h.after]
  unfold Requests.receive
  dsimp only
  rw [if_pos ⟨htype, hlisted⟩, hid, h.finish_eq]
  unfold Requests.pop
  dsimp only
  rw [hfilter]

/-- A timeout ends a request that still waits, and leaves its entry. -/
theorem Lists.timeout_eq : r.timeout id = { r with
    pending := before ++ (id, true) :: after
    answers := if done then r.answers else r.answers ++ [(id, .timedOut)] } := by
  have hkeep : ∀ l : List (Nat × Bool), id ∉ l.map Prod.fst →
      (l.map fun p => if p.1 = id then (id, true) else p) = l := by
    intro l hl
    have hsame : ∀ p ∈ l, (if p.1 = id then (id, true) else p) = p := by
      intro p hp
      refine if_neg fun heq => hl ?_
      exact List.mem_map.mpr ⟨p, hp, heq⟩
    rw [List.map_congr_left hsame, List.map_id']
  unfold Requests.timeout
  rw [h.finish_eq, h.pending, List.map_append, List.map_cons, hkeep before h.before,
    hkeep after h.after, if_pos rfl]

end Requests

/-! ## The invariant -/

/-- How far the requests have got: those whose answer has been received, those whose
answer is on the way, and those the task has not handled. -/
structure Progress (hmac : Hmac) (link : Nat) (a : Machine) (got coming : List Served) : Prop where
  served : a.served = got ++ coming
  asked : a.asked = a.served.map (·.request) ++ a.toDevice
  ids : requestIds a.asked = List.range' 1 a.asked.length
  next : a.requests.nextRequestId = a.asked.length + 1
  answers : a.toClient.filter isAnswer = coming.flatMap (·.frames hmac link)
  pending : a.requests.pending.map Prod.fst =
    requestIds (coming.map (·.request) ++ a.toDevice)
  ended : (a.requests.answers.map Prod.fst).Perm
    (requestIds (got.map (·.request)) ++ expired a.requests.pending)
  truthful : ∀ p ∈ a.requests.answers, p.2 = .timedOut ∨ ∃ v ∈ got,
    v.request.requestId.toNat = p.1 ∧ ∃ f, v.frames hmac link = [f] ∧
      p.2 = Requests.answerOf f.decoded
  quiet : ∀ f ∈ a.requests.eventQueue, f.frameType ≠ .response ∧ f.frameType ≠ .error

variable {hmac : Hmac} {link : Nat} {a a' : Machine} {got coming : List Served}

theorem progress_init (store : Store) (count : UInt8) (now : UInt32) :
    Progress hmac link (init store count now) [] [] where
  served := rfl
  asked := rfl
  ids := rfl
  next := rfl
  answers := rfl
  pending := rfl
  ended := .refl _
  truthful p hp := by cases hp
  quiet f hf := by cases hf

/-- The handler answers a request with one frame, under the request's id. -/
theorem Served.frames_eq (hmac : Hmac) (link : Nat) (v : Served) : ∃ f, v.frames hmac link = [f] ∧
    f.requestId = v.request.requestId ∧ isAnswer f = true := by
  obtain ⟨r, hr, hanswers⟩ :=
    replies_handleRequest v.request v.device.session hmac v.world link
  obtain ⟨htype, hid⟩ := isAnswer_sentFrame hanswers v.world
    (applyOutcome (v.outcome hmac link) v.device.toState)
  refine ⟨_, ?_, hid, htype⟩
  unfold Served.frames Device.frames
  rw [show (v.outcome hmac link).reply = some r from hr]
  rfl

/-- The events of a turn answer nothing. -/
theorem turn_frames (d : Device) (t : Turn) : (d.turn t).2.filter isAnswer = [] := by
  have houtcome : ∀ (d : Device) (w : World) (o : Outcome), AnnouncesOnly o →
      (d.frames w o).filter isAnswer = [] := by
    intro d w o ho
    refine List.filter_eq_nil_iff.mpr ?_
    intro f hf
    obtain ⟨r, hr, rfl⟩ := List.mem_map.mp hf
    rw [isAnswer_announcement (ho r (Option.mem_toList.mp hr))]
    exact Bool.false_ne_true
  obtain ⟨action, env⟩ := t
  cases action with
  | message m => exact houtcome _ _ _ (announcesOnly_msgOutcome _ _ m)
  | timer =>
    unfold Device.turn
    dsimp only
    split
    · rw [List.filter_append, houtcome _ _ (Device.heartbeat _ _), List.append_nil]
      · unfold Device.expire
        dsimp only
        split
        · refine houtcome _ _ _ ?_
          intro r hr
          cases hr
          exact announces_sendPairingStatus _
        · rfl
      · intro r hr
        cases hr
        exact announces_payload (fits_heartbeatTlvs _ _) (.inr rfl)
    · rfl

theorem Progress.nodup (h : Progress hmac link a got coming) :
    (requestIds a.asked).Nodup := by
  rw [h.ids]
  exact List.nodup_range'

theorem Progress.pending_nodup (h : Progress hmac link a got coming) :
    (a.requests.pending.map Prod.fst).Nodup := by
  have hall := h.nodup
  rw [h.asked, h.served, List.map_append, List.append_assoc, requestIds, List.map_append] at hall
  rw [h.pending]
  exact (List.nodup_append.mp hall).2.1

/-! ## Steps -/

theorem progress_request (h : Progress hmac link a got coming) {opcode : UInt16} {payload : Bytes}
    (hid : a.requests.nextRequestId < 2 ^ 32)
    (hstep : step hmac link a (.request opcode payload) = some a') :
    Progress hmac link a' got coming := by
  obtain rfl := Option.some.inj hstep
  have hrequest : a.requests.request = { a.requests with
      nextRequestId := a.requests.nextRequestId + 1
      pending := a.requests.pending ++ [(a.requests.nextRequestId, false)] } := by
    unfold Requests.request
    dsimp only
    rw [if_pos hid]
  have hnat : (UInt32.ofNat a.requests.nextRequestId).toNat = a.requests.nextRequestId := by
    rw [UInt32.toNat_ofNat', Nat.mod_eq_of_lt hid]
  refine ⟨h.served, ?_, ?_, ?_, h.answers, ?_, ?_, ?_, ?_⟩
  · dsimp only
    rw [h.asked, List.append_assoc]
  · dsimp only
    rw [requestIds, List.map_append, List.length_append, List.length_singleton,
      List.range'_concat, ← h.ids]
    simp only [List.map_cons, List.map_nil, hnat]
    rw [h.next, Nat.one_mul, Nat.add_comm]
    rfl
  · dsimp only
    rw [hrequest, List.length_append, List.length_singleton]
    dsimp only
    rw [h.next]
  · dsimp only
    rw [hrequest, ← List.append_assoc, requestIds, List.map_append, List.map_append]
    refine congrArg₂ (· ++ ·) h.pending ?_
    simp only [List.map_cons, List.map_nil, hnat]
  · dsimp only
    rw [hrequest]
    have hsame : expired (a.requests.pending ++ [(a.requests.nextRequestId, false)]) =
        expired a.requests.pending := by
      simp [expired]
    dsimp only
    rw [hsame]
    exact h.ended
  · dsimp only
    rw [hrequest]
    exact h.truthful
  · dsimp only
    rw [hrequest]
    exact h.quiet

theorem progress_handle (h : Progress hmac link a got coming) {w : World}
    (hstep : step hmac link a (.handle w) = some a') :
    ∃ coming', Progress hmac link a' got coming' := by
  obtain ⟨device, requests, toDevice, toClient, asked, served⟩ := a
  cases toDevice with
  | nil => cases hstep
  | cons r toDevice =>
    obtain rfl := Option.some.inj hstep
    let v : Served := ⟨r, w, device⟩
    obtain ⟨f, hframes, -, hanswer⟩ := v.frames_eq hmac link
    refine ⟨coming ++ [v], ?_, ?_, h.ids, h.next, ?_, ?_, h.ended, h.truthful, h.quiet⟩
    · dsimp only
      rw [← List.append_assoc, ← h.served]
    · have hasked := h.asked
      dsimp only at hasked ⊢
      rw [hasked, List.map_append, List.append_assoc]
      rfl
    · have hanswers := h.answers
      dsimp only at hanswers ⊢
      rw [List.filter_append, hanswers, List.flatMap_append]
      refine congrArg (_ ++ ·) ?_
      rw [List.flatMap_cons, List.flatMap_nil, List.append_nil]
      show (v.frames hmac link).filter isAnswer = v.frames hmac link
      rw [hframes, List.filter_cons_of_pos hanswer, List.filter_nil]
    · have hpending := h.pending
      dsimp only at hpending ⊢
      rw [hpending, List.map_append, List.append_assoc]
      rfl

theorem progress_turn (h : Progress hmac link a got coming) {t : Turn}
    (hstep : step hmac link a (.turn t) = some a') : Progress hmac link a' got coming := by
  obtain rfl := Option.some.inj hstep
  refine ⟨h.served, h.asked, h.ids, h.next, ?_, h.pending, h.ended, h.truthful, h.quiet⟩
  show (a.toClient ++ (a.device.turn t).2).filter isAnswer = _
  rw [List.filter_append, turn_frames, List.append_nil, h.answers]

theorem progress_timeout (h : Progress hmac link a got coming) {id : Nat}
    (hstep : step hmac link a (.timeout id) = some a') : Progress hmac link a' got coming := by
  obtain rfl := Option.some.inj hstep
  by_cases hlisted : id ∈ a.requests.pending.map Prod.fst
  · obtain ⟨⟨id, done⟩, hmem, rfl⟩ := List.mem_map.mp hlisted
    obtain ⟨before, after, hpending⟩ := List.append_of_mem hmem
    have hlists := lists_of_nodup hpending h.pending_nodup
    have hended := h.ended
    rw [hpending, expired_middle] at hended
    dsimp only
    rw [hlists.timeout_eq]
    refine ⟨h.served, h.asked, h.ids, h.next, h.answers, ?_, ?_, ?_, h.quiet⟩
    · rw [← h.pending, hpending]
      simp only [List.map_append, List.map_cons]
    · dsimp only
      rw [expired_middle]
      cases done with
      | true => exact hended
      | false =>
        rw [if_neg Bool.false_ne_true, List.map_append]
        refine (hended.append_right [id]).trans ?_
        simp only [Bool.false_eq_true, if_false, if_true, List.nil_append, List.append_assoc]
        exact (List.perm_append_comm.append_left _).append_left _
    · intro p hp
      cases done with
      | true => exact h.truthful p hp
      | false =>
        obtain hp | hp := List.mem_append.mp hp
        · exact h.truthful p hp
        · rw [List.mem_singleton.mp hp]
          exact .inl rfl
  · -- nothing is pending for this timer
    have hsame : a.requests.timeout id = a.requests := by
      have hwaits : ¬ a.requests.waits id = true := by
        intro hwaits
        exact hlisted (List.mem_map.mpr ⟨_, of_decide_eq_true hwaits, rfl⟩)
      have hfinish : a.requests.finish id .timedOut = a.requests := if_neg hwaits
      have hkeep : ∀ p ∈ a.requests.pending, (if p.1 = id then (id, true) else p) = p := by
        intro p hp
        refine if_neg fun heq => hlisted ?_
        exact List.mem_map.mpr ⟨p, hp, heq⟩
      unfold Requests.timeout
      rw [hfinish, List.map_congr_left hkeep, List.map_id']
    rw [hsame]
    exact h

/-- An answer ends the request it is for, unless that has timed out. -/
theorem progress_answer {f : WireFrame} {toClient : List WireFrame}
    (h : Progress hmac link a got coming) (hqueue : a.toClient = f :: toClient)
    (hanswer : isAnswer f = true) : ∃ v coming', coming = v :: coming' ∧
      Progress hmac link { a with requests := a.requests.receive f.decoded, toClient }
        (got ++ [v]) coming' := by
  have hanswers := h.answers
  rw [hqueue, List.filter_cons_of_pos hanswer] at hanswers
  cases coming with
  | nil => cases hanswers
  | cons v coming =>
    obtain ⟨f', hframes, hid, -⟩ := v.frames_eq hmac link
    rw [List.flatMap_cons, hframes, List.singleton_append] at hanswers
    obtain ⟨rfl, hrest⟩ := List.cons.inj hanswers
    obtain ⟨⟨id, done⟩, tail, htable, rfl, htail⟩ := List.map_eq_cons_iff.mp h.pending
    have hlists : Lists a.requests [] v.request.requestId.toNat done tail :=
      lists_of_nodup htable h.pending_nodup
    have htype : f.type = .response ∨ f.type = .error := by
      simpa [isAnswer] using hanswer
    have hnat : f.decoded.requestId.toNat = v.request.requestId.toNat :=
      congrArg UInt32.toNat hid
    have hended := h.ended
    rw [htable, ← List.nil_append (_ :: tail), expired_middle] at hended
    have hgot : requestIds ((got ++ [v]).map (·.request)) =
        requestIds (got.map (·.request)) ++ [v.request.requestId.toNat] := by
      simp only [requestIds, List.map_append, List.map_cons, List.map_nil]
    have htruthful : ∀ p ∈ a.requests.answers, p.2 = .timedOut ∨ ∃ v' ∈ got ++ [v],
        v'.request.requestId.toNat = p.1 ∧ ∃ f, v'.frames hmac link = [f] ∧
          p.2 = Requests.answerOf f.decoded := by
      intro p hp
      obtain htimeout | ⟨v', hv', hrest⟩ := h.truthful p hp
      · exact .inl htimeout
      · exact .inr ⟨v', List.mem_append_left _ hv', hrest⟩
    refine ⟨v, coming, rfl, ?_⟩
    rw [hlists.receive_eq hnat htype]
    refine ⟨?_, h.asked, h.ids, h.next, hrest, htail, ?_, ?_, h.quiet⟩
    · rw [h.served, List.append_assoc]
      rfl
    · dsimp only
      rw [hgot, List.append_assoc, List.nil_append]
      cases done with
      | true => exact hended
      | false =>
        rw [if_neg Bool.false_ne_true, List.map_append]
        refine (hended.append_right [v.request.requestId.toNat]).trans ?_
        simp only [expired, Bool.false_eq_true, if_false, List.filter_nil, List.map_nil,
          List.nil_append, List.append_assoc]
        exact List.perm_append_comm.append_left _
    · intro p hp
      cases done with
      | true => exact htruthful p hp
      | false =>
        obtain hp | hp := List.mem_append.mp hp
        · exact htruthful p hp
        · rw [List.mem_singleton.mp hp]
          exact .inr ⟨v, List.mem_append_right _ List.mem_cons_self, rfl, f, hframes, rfl⟩

theorem progress_receive (h : Progress hmac link a got coming)
    (hstep : step hmac link a .receive = some a') :
    ∃ got' coming', Progress hmac link a' got' coming' := by
  obtain ⟨device, requests, toDevice, queue, asked, served⟩ := a
  cases queue with
  | nil => cases hstep
  | cons f queue =>
    obtain rfl := Option.some.inj hstep
    by_cases hanswer : isAnswer f = true
    · obtain ⟨v, coming', -, hprogress⟩ := progress_answer h rfl hanswer
      exact ⟨_, _, hprogress⟩
    · -- an event goes to the queue of the events
      have htype : f.type ≠ .response ∧ f.type ≠ .error := by
        simpa [isAnswer] using hanswer
      have hreceive : requests.receive f.decoded =
          { requests with eventQueue := requests.eventQueue ++ [f.decoded] } := by
        unfold Requests.receive
        dsimp only
        rw [if_neg]
        rintro ⟨hresponse | herror, -⟩
        · exact htype.1 hresponse
        · exact htype.2 herror
      have hanswers := h.answers
      dsimp only at hanswers
      rw [List.filter_cons_of_neg hanswer] at hanswers
      refine ⟨got, coming, ?_⟩
      dsimp only
      rw [hreceive]
      refine ⟨h.served, h.asked, h.ids, h.next, hanswers, h.pending, h.ended, h.truthful, ?_⟩
      intro g hg
      obtain hg | hg := List.mem_append.mp hg
      · exact h.quiet g hg
      · rw [List.mem_singleton.mp hg]
        exact htype

theorem progress_step {x : Action} (h : ∃ got coming, Progress hmac link a got coming)
    (hC : Numbered a x) (hstep : step hmac link a x = some a') :
    ∃ got coming, Progress hmac link a' got coming := by
  obtain ⟨got, coming, h⟩ := h
  cases x with
  | request opcode payload => exact ⟨got, coming, progress_request h hC hstep⟩
  | timeout id => exact ⟨got, coming, progress_timeout h hstep⟩
  | handle w =>
    obtain ⟨coming', h'⟩ := progress_handle h hstep
    exact ⟨got, coming', h'⟩
  | turn t => exact ⟨got, coming, progress_turn h hstep⟩
  | receive => exact progress_receive h hstep

/-! ## Runs -/

/-- The requests that the client makes, numbered from `next` on. -/
def requestsMade : Nat → List WireAction → List Request
  | _, [] => []
  | next, .request opcode payload _ :: as =>
    ⟨opcode, UInt32.ofNat next, payload⟩ :: requestsMade (next + 1) as
  | next, _ :: as => requestsMade next as

/-- The requests asked so far, and the id of the next one. -/
def Asks (asked : List Request) (next : Nat) (a : Machine) : Prop :=
  a.asked = asked ∧ a.requests.nextRequestId = next

theorem finish_next (r : Requests) (id : Nat) (answer : BleClient.Answer) :
    (r.finish id answer).nextRequestId = r.nextRequestId := by
  unfold Requests.finish
  split
  · rfl
  · rfl

theorem receive_next (r : Requests) (frame : ClientFrame) :
    (r.receive frame).nextRequestId = r.nextRequestId := by
  unfold Requests.receive
  dsimp only
  split
  · exact finish_next r _ _
  · rfl

/-- Only a request changes what is asked. -/
theorem step_asks {asked : List Request} {next : Nat} {x : Action} (h : Asks asked next a)
    (hx : ∀ opcode payload, x ≠ .request opcode payload) (hstep : step hmac link a x = some a') :
    Asks asked next a' := by
  obtain ⟨device, requests, toDevice, toClient, asked, served⟩ := a
  cases x with
  | request opcode payload => exact absurd rfl (hx opcode payload)
  | timeout id =>
    obtain rfl := Option.some.inj hstep
    exact ⟨h.1, (finish_next requests id .timedOut).trans h.2⟩
  | handle w =>
    cases toDevice with
    | nil => cases hstep
    | cons r toDevice =>
      obtain rfl := Option.some.inj hstep
      exact h
  | turn t =>
    obtain rfl := Option.some.inj hstep
    exact h
  | receive =>
    cases toClient with
    | nil => cases hstep
    | cons f toClient =>
      obtain rfl := Option.some.inj hstep
      exact ⟨h.1, (receive_next requests f.decoded).trans h.2⟩

theorem run_asks {bs : List Action} (hbs : ∀ x ∈ bs, ∀ opcode payload, x ≠ .request opcode payload)
    (hrun : run (step hmac link) a bs = some a') :
    Asks a.asked a.requests.nextRequestId a' :=
  run_invariant (C := fun _ x => ∀ opcode payload, x ≠ .request opcode payload)
    (fun _ _ _ hI hx hstep => step_asks hI hx hstep) ⟨rfl, rfl⟩ (along_of_forall hbs) hrun

theorem matches_asks {x : WireAction} {bs : List Action} (h : Matches x bs)
    (hrun : run (step hmac link) a bs = some a') :
    ∀ as, a'.asked ++ requestsMade a'.requests.nextRequestId as =
      a.asked ++ requestsMade a.requests.nextRequestId (x :: as) := by
  intro as
  cases h with
  | request opcode payload n =>
    obtain rfl := Option.some.inj hrun
    have hnext : a.requests.request.nextRequestId = a.requests.nextRequestId + 1 := rfl
    dsimp only
    rw [hnext, requestsMade, List.append_assoc]
    rfl
  | timeout id =>
    obtain ⟨hasked, hnext⟩ := run_asks (by simp) hrun
    rw [hasked, hnext, requestsMade]
    simp
  | chunk maxPayload env completed =>
    obtain ⟨hasked, hnext⟩ := run_asks (by simp) hrun
    rw [hasked, hnext, requestsMade]
    simp
  | turn maxPayload t =>
    obtain ⟨hasked, hnext⟩ := run_asks (by simp) hrun
    rw [hasked, hnext, requestsMade]
    simp
  | notify completed =>
    obtain ⟨hasked, hnext⟩ := run_asks (by simp) hrun
    rw [hasked, hnext, requestsMade]
    simp

theorem run_asked {as : List WireAction} {bss : List (List Action)}
    (h : List.Forall₂ Matches as bss)
    (hrun : run (step hmac link) a bss.flatten = some a') :
    a'.asked = a.asked ++ requestsMade a.requests.nextRequestId as := by
  induction h generalizing a with
  | nil =>
    obtain rfl := Option.some.inj hrun
    exact (List.append_nil _).symm
  | @cons x bs as bss hmatch _ ih =>
    rw [List.flatten_cons, run_append] at hrun
    obtain ⟨u, hu, hrun⟩ := Option.bind_eq_some_iff.mp hrun
    rw [ih hrun]
    exact matches_asks hmatch hu as

/-- What the handler said to a request, as the client tells its caller. -/
def Told (hmac : Hmac) (link : Nat) (v : Served) (answer : BleClient.Answer) : Prop :=
  ∃ r, (v.outcome hmac link).reply = some r ∧ answer = Requests.answerOf
    (sentFrame r v.world (applyOutcome (v.outcome hmac link) v.device.toState)).decoded

theorem told_of_frames {v : Served} {f : WireFrame} (h : v.frames hmac link = [f]) :
    Told hmac link v (Requests.answerOf f.decoded) := by
  unfold Served.frames Device.frames at h
  cases hreply : (v.outcome hmac link).reply with
  | none =>
    rw [hreply] at h
    cases h
  | some r =>
    rw [hreply] at h
    obtain ⟨rfl, -⟩ := List.cons.inj h
    exact ⟨r, hreply, rfl⟩

theorem Progress.asked_eq (h : Progress hmac link a got coming) : requestIds a.asked =
    requestIds (got.map (·.request)) ++ a.requests.pending.map Prod.fst := by
  rw [h.pending, h.asked, h.served, List.map_append, List.append_assoc, requestIds,
    List.map_append]
  rfl

theorem Progress.ended_nodup (h : Progress hmac link a got coming) :
    (a.requests.answers.map Prod.fst).Nodup := by
  have hall := h.nodup
  rw [h.asked_eq] at hall
  refine h.ended.nodup_iff.mpr (hall.sublist ?_)
  exact (List.filter_sublist.map Prod.fst).append_left _

/-- Nothing is pending once nothing is on the way. -/
theorem Progress.idle (h : Progress hmac link a got coming) (hdevice : a.toDevice = [])
    (hclient : a.toClient = []) : a.requests.pending = [] ∧
      (a.requests.answers.map Prod.fst).Perm (List.range' 1 a.asked.length) := by
  have hcoming : coming = [] := by
    have hanswers := h.answers
    rw [hclient, List.filter_nil] at hanswers
    cases coming with
    | nil => rfl
    | cons v coming =>
      obtain ⟨f, hframes, -⟩ := v.frames_eq hmac link
      rw [List.flatMap_cons, hframes] at hanswers
      cases hanswers
  have hpending : a.requests.pending = [] := by
    have hids := h.pending
    rw [hcoming, hdevice] at hids
    exact List.map_eq_nil_iff.mp hids
  refine ⟨hpending, ?_⟩
  have hended := h.ended
  have hasked := h.asked_eq
  rw [hpending, List.map_nil, List.append_nil] at hasked
  rw [hpending, ← hasked] at hended
  rw [← h.ids]
  exact hended.trans (List.Perm.of_eq (List.append_nil _))

/-- **Every request ends once.** At any moment the machine that the two ends follow has
served the first requests that were made, in their order; the requests that have ended are
different, and each ended with a timeout or with what the handler said to it there. When
both queues have run empty, every request that was made has ended. -/
theorem requests_answered (hmac : Hmac) (link : Nat) (store : Store) (count : UInt8)
    (now : UInt32) (as : List WireAction) {c : Wire}
    (hC : Along (Wire.step hmac link) (Condition link) (Wire.init store count now) as)
    (hrun : run (Wire.step hmac link) (Wire.init store count now) as = some c) :
    ∃ bss a, List.Forall₂ Matches as bss ∧
      run (step hmac link) (init store count now) bss.flatten = some a ∧ Refines c a ∧
      a.served.map (·.request) ++ a.toDevice = requestsMade 1 as ∧
      (c.client.requests.answers.map Prod.fst).Nodup ∧
      (∀ p ∈ c.client.requests.answers, p.2 = .timedOut ∨
        ∃ v ∈ a.served, v.request.requestId.toNat = p.1 ∧ Told hmac link v p.2) ∧
      (∀ f ∈ c.client.requests.eventQueue, f.frameType ≠ .response ∧ f.frameType ≠ .error) ∧
      (c.toDevice = [] → c.toClient = [] → a.toDevice = [] ∧ c.client.requests.pending = [] ∧
        (c.client.requests.answers.map Prod.fst).Perm (List.range' 1 a.served.length)) := by
  obtain ⟨bss, a, hmatches, hnumbered, ha, hrefines⟩ :=
    run_refines (refines_init store count now) hC hrun
  obtain ⟨got, coming, hprogress⟩ := run_invariant
    (I := fun a => ∃ got coming, Progress hmac link a got coming)
    (fun _ _ _ hI hx hstep => progress_step hI hx hstep)
    ⟨[], [], progress_init store count now⟩ hnumbered ha
  have hasked : a.asked = requestsMade 1 as := run_asked hmatches ha
  refine ⟨bss, a, hmatches, ha, hrefines, ?_, ?_, ?_, ?_, ?_⟩
  · rw [← hasked, hprogress.asked]
  · rw [hrefines.requests]
    exact hprogress.ended_nodup
  · intro p hp
    rw [hrefines.requests] at hp
    obtain htimeout | ⟨v, hv, hid, f, hframes, hanswer⟩ := hprogress.truthful p hp
    · exact .inl htimeout
    · refine .inr ⟨v, hprogress.served ▸ List.mem_append_left coming hv, hid, ?_⟩
      rw [hanswer]
      exact told_of_frames hframes
  · rw [hrefines.requests]
    exact hprogress.quiet
  · intro hdevice hclient
    have htoDevice := hrefines.toDevice
    rw [hdevice] at htoDevice
    obtain ⟨-, left, -, htoClient⟩ := hrefines.toClient
    rw [hclient] at htoClient
    have hwaiting := htoDevice.idle.2
    obtain ⟨hpending, hended⟩ := hprogress.idle hwaiting htoClient.idle.2
    have hlen : a.asked.length = a.served.length := by
      rw [hprogress.asked, hwaiting, List.append_nil, List.length_map]
    rw [hrefines.requests, ← hlen]
    exact ⟨hwaiting, hpending, hended⟩

theorem requests_answered_ping : ∃ c, run (Wire.step default 0) (Wire.init (fun _ => none) 0 0)
      pinging = some c ∧ ∃ bss a, List.Forall₂ Matches pinging bss ∧
    run (step default 0) (init (fun _ => none) 0 0) bss.flatten = some a ∧ Refines c a ∧
    a.served.map (·.request) ++ a.toDevice = requestsMade 1 pinging ∧
    (c.client.requests.answers.map Prod.fst).Nodup ∧
    (∀ p ∈ c.client.requests.answers, p.2 = .timedOut ∨
      ∃ v ∈ a.served, v.request.requestId.toNat = p.1 ∧ Told default 0 v p.2) ∧
    (∀ f ∈ c.client.requests.eventQueue, f.frameType ≠ .response ∧ f.frameType ≠ .error) ∧
    (c.toDevice = [] → c.toClient = [] → a.toDevice = [] ∧ c.client.requests.pending = [] ∧
      (c.client.requests.answers.map Prod.fst).Perm (List.range' 1 a.served.length)) :=
  ⟨_, rfl, requests_answered default 0 (fun _ => none) 0 0 pinging condition_pinging rfl⟩

end Jukeboy.CompanionApi.Rpc
