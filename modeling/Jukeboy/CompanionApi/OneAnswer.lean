import Jukeboy.CompanionApi.Chunking
import Jukeboy.CompanionApi.HandlerCalls

/-! # One answer for a request

Whatever the services return, every exit of every handler is the call that sends
the answer, and no handler sends a frame before it. -/
namespace Jukeboy.CompanionApi.HandlerCalls
open Jukeboy.Base Jukeboy.Base.Calls Jukeboy.CompanionApi.Tlv Jukeboy.CompanionApi.Protocol
open Jukeboy.CompanionApi.RxBuffer (RxEvent Request parseStep)
open Jukeboy.CompanionApi.Chunking (WellFormed encodeRequest parseStep_encodeRequest)

/-! ## Answers -/

/-- The frame a call sends: its type and its request id. -/
def Call.frame : Call → Option (FrameType × UInt32)
  | .sendFrame type _ requestId _ => some (type, requestId)
  | _ => none

/-- A response or an error frame. -/
def Call.isAnswer (c : Call) : Bool :=
  match c.frame with
  | some (.response, _) | some (.error, _) => true
  | _ => false

/-- The request ids answered, in order. -/
def answeredIds (calls : List Call) : List UInt32 :=
  (calls.filter Call.isAnswer).filterMap fun c => c.frame.map Prod.snd

/-- The request id of the answer an event of the buffer leads to. -/
def answerId : RxEvent → Option UInt32
  | .overflow => some 0
  | .resync => none
  | .sendError _ requestId _ => some requestId
  | .request r => some r.requestId

def Call.Quiet (c : Call) : Prop := c.frame = none

def Call.AnswersTo (id : UInt32) (c : Call) : Prop :=
  ∃ type, c.frame = some (type, id) ∧ c.isAnswer = true

/-- No frame is sent. -/
def Silent {α : Type} (p : Api α) : Prop := p.Only Call.Quiet

/-- No frame is sent but one answer, and that last. -/
def Answers {α : Type} (id : UInt32) (p : Api α) : Prop := p.Ends Call.Quiet (Call.AnswersTo id)

section rules
variable {α β : Type} {id : UInt32}

/-! ### A call and what follows it -/

theorem answers_call (c : Call) (hc : c.Quiet) (f : c.Result → Api α) :
    Answers id (Prog.call c .done >>= f) ↔ ∀ r, Answers id (f r) := by
  constructor
  · rintro (⟨⟨type, hframe, -⟩, -⟩ | ⟨-, h⟩)
    · rw [Call.Quiet, hframe] at hc
      cases hc
    · exact h
  · exact fun h => .inr ⟨hc, h⟩

theorem silent_call (c : Call) (hc : c.Quiet) (f : c.Result → Api α) :
    Silent (Prog.call c .done >>= f) ↔ ∀ r, Silent (f r) :=
  ⟨fun h => h.2, fun h => ⟨hc, h⟩⟩

@[simp] theorem answers_command (call : ServiceHandlers.ServiceCall) (f : EspErr → Api α) :
    Answers id (command call >>= f) ↔ ∀ err, Answers id (f err) :=
  answers_call (.command call) rfl f

@[simp] theorem answers_get (getter : Getter) (f : Unit → Api α) :
    Answers id (get getter >>= f) ↔ ∀ u, Answers id (f u) := answers_call (.get getter) rfl f

@[simp] theorem answers_fetch (x : Fetch) (f : EspErr → Api α) :
    Answers id (fetch x >>= f) ↔ ∀ err, Answers id (f err) := answers_call (.fetch x) rfl f

@[simp] theorem answers_test (t : Test) (f : Bool → Api α) :
    Answers id (test t >>= f) ↔ ∀ b, Answers id (f b) := answers_call (.test t) rfl f

@[simp] theorem answers_count (c : Count) (f : Nat → Api α) :
    Answers id (count c >>= f) ↔ ∀ n, Answers id (f n) := answers_call (.count c) rfl f

@[simp] theorem answers_ftell (f : Option Nat → Api α) :
    Answers id (ftell >>= f) ↔ ∀ size, Answers id (f size) := answers_call .ftell rfl f

@[simp] theorem answers_opendir (f : Option (List (Bool × Bool)) → Api α) :
    Answers id (opendir >>= f) ↔ ∀ entries, Answers id (f entries) := answers_call .opendir rfl f

@[simp] theorem silent_fetch_bind (x : Fetch) (f : EspErr → Api α) :
    Silent (fetch x >>= f) ↔ ∀ err, Silent (f err) := silent_call (.fetch x) rfl f

@[simp] theorem silent_get_bind (getter : Getter) (f : Unit → Api α) :
    Silent (get getter >>= f) ↔ ∀ u, Silent (f u) := silent_call (.get getter) rfl f

@[simp] theorem silent_test_bind (t : Test) (f : Bool → Api α) :
    Silent (test t >>= f) ↔ ∀ b, Silent (f b) := silent_call (.test t) rfl f

@[simp] theorem silent_fits_bind (f : Bool → Api α) :
    Silent (fits >>= f) ↔ ∀ b, Silent (f b) := silent_call .fits rfl f

@[simp] theorem silent_command_bind (call : ServiceHandlers.ServiceCall) (f : EspErr → Api α) :
    Silent (command call >>= f) ↔ ∀ err, Silent (f err) := silent_call (.command call) rfl f

@[simp] theorem silent_count_bind (c : Count) (f : Nat → Api α) :
    Silent (count c >>= f) ↔ ∀ n, Silent (f n) := silent_call (.count c) rfl f

@[simp] theorem silent_pure_bind (a : α) (f : α → Api β) :
    Silent (pure a >>= f) ↔ Silent (f a) := Iff.rfl

/-! ### Ends and branches -/

@[simp] theorem silent_pure (a : α) : Silent (pure a : Api α) := Prog.only_pure a

@[simp] theorem silent_command (call : ServiceHandlers.ServiceCall) : Silent (command call) :=
  Prog.only_perform rfl

@[simp] theorem silent_get (getter : Getter) : Silent (get getter) := Prog.only_perform rfl

@[simp] theorem silent_fetch (x : Fetch) : Silent (fetch x) := Prog.only_perform rfl

@[simp] theorem silent_test (t : Test) : Silent (test t) := Prog.only_perform rfl

@[simp] theorem silent_fits : Silent fits := Prog.only_perform rfl

@[simp] theorem answers_sendResponse (opcode : UInt16) (error : Option ApiError) :
    Answers id (sendFrame .response opcode id error) := Prog.ends_perform ⟨.response, rfl, rfl⟩

@[simp] theorem answers_sendError (opcode : UInt16) (error : ApiError) :
    Answers id (sendError opcode id error) := Prog.ends_perform ⟨.error, rfl, rfl⟩

@[simp] theorem answers_sendOk (opcode : UInt16) : Answers id (sendOk opcode id) :=
  answers_sendResponse opcode none

@[simp] theorem answers_sendPairingStatus : Answers id (sendPairingStatus id .response) :=
  answers_sendResponse _ none

@[simp] theorem answers_ite {c : Prop} [Decidable c] {p q : Api α} :
    Answers id (if c then p else q) ↔ (c → Answers id p) ∧ (¬ c → Answers id q) :=
  apply_ite (Answers id) c p q ▸ ite_prop_iff_and

@[simp] theorem silent_ite {c : Prop} [Decidable c] {p q : Api α} :
    Silent (if c then p else q) ↔ (c → Silent p) ∧ (¬ c → Silent q) :=
  apply_ite Silent c p q ▸ ite_prop_iff_and

theorem Silent.bind {p : Api α} {f : α → Api β} (hp : Silent p) (hf : ∀ a, Silent (f a)) :
    Silent (p >>= f) := Prog.Only.bind hp hf

theorem Silent.answers {p : Api α} {f : α → Api β} (hp : Silent p)
    (hf : ∀ a, Answers id (f a)) : Answers id (p >>= f) := Prog.Ends.bind hp hf

@[simp] theorem answers_answer {err : EspErr} {opcode : UInt16} {done : Api EspErr} :
    Answers id (answer err opcode id done) ↔ (err = .ok → Answers id done) := by
  simp [answer]

end rules

/-! ## The status TLVs -/

section handlers
variable {id : UInt32}

theorem silent_appendPlaybackStatus : Silent appendPlaybackStatus := by
  simp [appendPlaybackStatus]

theorem silent_appendCartridgeStatus : Silent appendCartridgeStatus := by
  simp [appendCartridgeStatus]

theorem silent_appendWifiStatus : Silent appendWifiStatus := by simp [appendWifiStatus]

theorem silent_appendLastfmStatus : Silent appendLastfmStatus := by simp [appendLastfmStatus]

theorem silent_appendHistorySummary : Silent appendHistorySummary := by
  simp [appendHistorySummary]

theorem silent_appendBtAudioStatus : Silent appendBtAudioStatus := by simp [appendBtAudioStatus]

theorem silent_appendOutputStatus : Silent appendOutputStatus := by simp [appendOutputStatus]

theorem silent_appendScriptStatus : Silent appendScriptStatus := by simp [appendScriptStatus]

@[simp] theorem answers_handleSnapshot (opcode : UInt16) :
    Answers id (handleSnapshot opcode id) := by
  simp only [handleSnapshot, answers_get]
  intro _
  refine silent_appendPlaybackStatus.answers fun _ => ?_
  refine silent_appendCartridgeStatus.answers fun _ => ?_
  refine silent_appendWifiStatus.answers fun _ => ?_
  refine silent_appendLastfmStatus.answers fun _ => ?_
  refine silent_appendHistorySummary.answers fun _ => ?_
  refine silent_appendBtAudioStatus.answers fun _ => ?_
  exact answers_sendOk opcode

@[simp] theorem answers_handleCommand (call : ServiceHandlers.ServiceCall) (opcode : UInt16) :
    Answers id (handleCommand call opcode id) := by
  simp [handleCommand]

/-! ## Session handlers -/

@[simp] theorem answers_handleCapabilities (opcode : UInt16) : Answers id (handleCapabilities opcode id) := by
  simp [handleCapabilities]

@[simp] theorem answers_handlePing (opcode : UInt16) (payload : Bytes) :
    Answers id (handlePing opcode id payload) := by
  simp [handlePing]

@[simp] theorem answers_handlePairBegin (payload : Bytes) : Answers id (handlePairBegin id payload) := by
  unfold handlePairBegin
  split <;> simp

@[simp] theorem answers_handleAuthChallenge (payload : Bytes) :
    Answers id (handleAuthChallenge id payload) := by
  unfold handleAuthChallenge
  split <;> simp

@[simp] theorem answers_handleAuthProof (g : Globals) (payload : Bytes) :
    Answers id (handleAuthProof g id payload) := by
  unfold handleAuthProof
  split <;> simp

theorem silent_loadRecords (slots : List Nat) : Silent (loadRecords slots) := by
  induction slots with
  | nil => exact silent_pure ()
  | cons slot slots ih => exact (silent_fetch (.loadRecord slot)).bind fun _ => ih

@[simp] theorem answers_handleTrustedList : Answers id (handleTrustedList id) := by
  simp only [handleTrustedList, answers_get]
  intro _
  exact (silent_loadRecords _).answers fun _ => answers_sendOk _

@[simp] theorem answers_handleTrustedRevoke (opcode : UInt16) (payload : Bytes) :
    Answers id (handleTrustedRevoke opcode id payload) := by
  unfold handleTrustedRevoke
  split
  · exact answers_sendError opcode _
  · simp

/-! ## Playback, output and library -/

theorem silent_commandOr (call : Option ServiceHandlers.ServiceCall) : Silent (commandOr call) := by
  cases call with
  | none => exact silent_pure _
  | some call => exact silent_command call

theorem silent_playbackControl (code : UInt8) (value : UInt32) :
    Silent (playbackControl code value) := by
  unfold playbackControl
  split <;> simp

@[simp] theorem answers_handlePlaybackControl (payload : Bytes) :
    Answers id (handlePlaybackControl id payload) := by
  unfold handlePlaybackControl
  split
  · exact answers_sendError _ _
  · exact (silent_playbackControl _ _).answers fun _ => by simp

theorem silent_resolveCartridgePath : Silent resolveCartridgePath := by
  simp [resolveCartridgePath]

theorem silent_coverExists : Silent coverExists :=
  silent_resolveCartridgePath.bind fun _ => by simp

@[simp] theorem answers_handleLibraryAlbum : Answers id (handleLibraryAlbum id) := by
  refine silent_appendCartridgeStatus.answers fun _ => ?_
  simp only [answers_get]
  intros
  exact silent_coverExists.answers fun _ => answers_sendOk _

/-- The loop is silent when its turns are. -/
theorem silent_pageLoop {turn : UInt32 → Api Bool} (h : ∀ position, Silent (turn position))
    (total count : Nat) (position : UInt32) : Silent (pageLoop turn total count position) := by
  induction count generalizing position with
  | zero => exact silent_pure ()
  | succ count ih =>
    rw [pageLoop, silent_ite]
    refine ⟨fun _ => (h position).bind fun more => ?_, fun _ => silent_pure ()⟩
    simp [ih]

@[simp] theorem answers_handleTrackPage (payload : Bytes) : Answers id (handleTrackPage id payload) := by
  simp only [handleTrackPage, answers_count]
  intro total
  exact (silent_pageLoop (fun _ => by simp) _ _ _).answers fun _ => answers_sendOk _

@[simp] theorem answers_readCover (payload : Bytes) : Answers id (readCover id payload) := by
  simp only [readCover, answers_test, answers_ite, answers_get]
  intro seeked
  refine ⟨by simp, fun _ => ?_⟩
  simp only [answers_ftell]
  intro size
  split <;> simp

@[simp] theorem answers_handleLibraryCover (payload : Bytes) :
    Answers id (handleLibraryCover id payload) := by
  simp only [handleLibraryCover, answers_test, answers_ite]
  intro mounted
  refine ⟨fun _ => answers_sendError _ _, fun _ => ?_⟩
  refine silent_resolveCartridgePath.answers fun _ => ?_
  simp

/-! ## Wi-Fi -/

@[simp] theorem answers_handleWifiScanResults (payload : Bytes) :
    Answers id (handleWifiScanResults id payload) := by
  simp only [handleWifiScanResults, answers_fetch, answers_answer, answers_count]
  intro _ _ total
  exact (silent_pageLoop (fun _ => silent_fits) _ _ _).answers fun _ => answers_sendOk _

@[simp] theorem answers_handleWifiConnect (payload : Bytes) :
    Answers id (handleWifiConnect id payload) := by
  unfold handleWifiConnect
  split <;> simp

@[simp] theorem answers_handleWifiSimple (opcode : UInt16) (payload : Bytes) :
    Answers id (handleWifiSimple opcode id payload) :=
  (silent_commandOr _).answers fun _ => by simp

theorem silent_appendEntries (n : Nat) : Silent (appendEntries n) := by
  induction n with
  | zero => exact silent_pure ()
  | succ n ih => simp [appendEntries, ih]

@[simp] theorem answers_handleWifiListSlots : Answers id (handleWifiListSlots id) := by
  simp only [handleWifiListSlots, answers_fetch, answers_answer]
  intro _ _
  exact (silent_appendEntries _).answers fun _ => answers_sendOk _

@[simp] theorem answers_handleWifiSaveSlot (payload : Bytes) :
    Answers id (handleWifiSaveSlot id payload) := by
  unfold handleWifiSaveSlot
  split <;> simp

/-! ## Last.fm and history -/

@[simp] theorem answers_handleLastfmControl (payload : Bytes) :
    Answers id (handleLastfmControl id payload) := by
  unfold handleLastfmControl
  split
  · exact answers_sendError _ _
  · exact (silent_commandOr _).answers fun _ => by simp

@[simp] theorem answers_handleHistoryAlbumPage (payload : Bytes) :
    Answers id (handleHistoryAlbumPage id payload) := by
  simp only [handleHistoryAlbumPage, answers_count]
  intro total
  exact (silent_pageLoop (fun _ => by simp) _ _ _).answers fun _ => answers_sendOk _

@[simp] theorem answers_handleHistoryTrackPage (payload : Bytes) :
    Answers id (handleHistoryTrackPage id payload) := by
  unfold handleHistoryTrackPage
  split
  · exact answers_sendError _ _
  · simp only [answers_count]
    intro total
    exact (silent_pageLoop (fun _ => by simp) _ _ _).answers fun _ => answers_sendOk _

/-! ## Bluetooth -/

@[simp] theorem answers_handleBtAudioControl (payload : Bytes) :
    Answers id (handleBtAudioControl id payload) := by
  unfold handleBtAudioControl
  split
  · exact answers_sendError _ _
  · exact (silent_commandOr _).answers fun _ => by simp

@[simp] theorem answers_handleBtScanStart : Answers id (handleBtScanStart id) := by
  simp [handleBtScanStart]

@[simp] theorem answers_handleBtScanResults : Answers id (handleBtScanResults id) := by
  simp only [handleBtScanResults, answers_fetch, answers_answer, answers_get, answers_count]
  intro _ _ _ found
  exact (silent_appendEntries found).answers fun _ => answers_sendOk _

@[simp] theorem answers_handleBtBondedList : Answers id (handleBtBondedList id) := by
  simp only [handleBtBondedList, answers_count]
  intro bonded
  split
  · exact (silent_pure _).answers fun _ => by simp
  · simp

@[simp] theorem answers_handleBtUnbond (payload : Bytes) : Answers id (handleBtUnbond id payload) := by
  unfold handleBtUnbond
  split <;> simp

@[simp] theorem answers_handleOutputStatus : Answers id (handleOutputStatus id) :=
  silent_appendOutputStatus.answers fun _ => answers_sendOk _

@[simp] theorem answers_handleOutputSelect (payload : Bytes) :
    Answers id (handleOutputSelect id payload) := by
  unfold handleOutputSelect
  split
  · exact answers_sendError _ _
  · simp only [answers_ite, answers_sendError, answers_command, answers_answer]
    refine ⟨fun _ => trivial, fun _ _ _ => ?_⟩
    exact silent_appendOutputStatus.answers fun _ => answers_sendOk _

/-! ## HID, scripts and system -/

@[simp] theorem answers_handleHidStatus : Answers id (handleHidStatus id) := by simp [handleHidStatus]

theorem silent_ledCalls (payload : Bytes) : Silent (ledCalls payload) := by
  simp only [ledCalls, silent_ite, silent_command, implies_true, true_and]
  intro _
  split <;> split <;> simp

@[simp] theorem answers_handleHidLedSet (payload : Bytes) : Answers id (handleHidLedSet id payload) :=
  (silent_ledCalls payload).answers fun _ => by simp

@[simp] theorem answers_handleScriptStatus : Answers id (handleScriptStatus id) :=
  silent_appendScriptStatus.answers fun _ => answers_sendOk _

theorem silent_listEntries (entries : List (Bool × Bool)) : Silent (listEntries entries) := by
  induction entries with
  | nil => exact silent_pure ()
  | cons entry entries ih => simp [listEntries, ih]

@[simp] theorem answers_listDirectory : Answers id (listDirectory id) := by
  simp only [listDirectory, answers_opendir]
  intro entries
  split
  · exact answers_sendError _ _
  · exact (silent_listEntries _).answers fun _ => by simp

@[simp] theorem answers_handleScriptList (payload : Bytes) : Answers id (handleScriptList id payload) := by
  unfold handleScriptList
  split <;> simp

@[simp] theorem answers_readScriptLog (payload : Bytes) : Answers id (readScriptLog id payload) := by
  simp only [readScriptLog, answers_test, answers_ite, answers_get]
  intro seeked
  refine ⟨by simp, fun _ => ?_⟩
  simp only [answers_ftell]
  intro size
  split <;> simp

@[simp] theorem answers_handleScriptLog (payload : Bytes) : Answers id (handleScriptLog id payload) := by
  unfold handleScriptLog
  split <;> simp

@[simp] theorem answers_handleScriptRun (payload : Bytes) : Answers id (handleScriptRun id payload) := by
  unfold handleScriptRun
  split <;> simp

@[simp] theorem answers_handleSystemReboot (opcode : UInt16) (downloadMode : Bool) :
    Answers id (handleSystemReboot opcode id downloadMode) := by
  simp [handleSystemReboot]

end handlers

/-! ## Requests -/

theorem answers_dispatch (g : Globals) (r : Request) : Answers r.requestId (dispatch g r) := by
  unfold dispatch
  split <;>
    simp [handleHello, handleWifiReconnect, handleLastfmRequestToken, handleHistoryClear]

theorem answers_handleRequest (g : Globals) (r : Request) :
    Answers r.requestId (handleRequest g r) := by
  simp [handleRequest, answers_dispatch]

/-- An event of the buffer is answered once, or it is a skipped byte and nothing is called. -/
theorem handleEvent_answers (g : Globals) (event : RxEvent) :
    match answerId event with
    | some id => Answers id (handleEvent g event)
    | none => handleEvent g event = pure () := by
  cases event with
  | overflow => exact Prog.Ends.bind_pure _ (answers_sendError 0 _)
  | resync => rfl
  | sendError opcode requestId error => exact Prog.Ends.bind_pure _ (answers_sendError opcode _)
  | request r => exact Prog.Ends.bind_pure _ (answers_handleRequest g r)

/-! ## Runs -/

/-- The services always return something. -/
theorem exists_run {α : Type} (p : Api α) : ∃ calls a, Prog.Trace p calls a := by
  refine Prog.exists_trace (fun c => ?_) p
  cases c with
  | sendFrame _ _ _ _ => exact EspErr.ok
  | command _ => exact EspErr.ok
  | get _ => exact ()
  | fetch _ => exact EspErr.ok
  | test _ => exact true
  | count _ => exact (0 : Nat)
  | ftell => exact (none : Option Nat)
  | opendir => exact (none : Option (List (Bool × Bool)))
  | fits => exact true

theorem Call.Quiet.not_isAnswer {c : Call} (h : c.Quiet) : c.isAnswer = false := by
  rw [Call.isAnswer, h]

theorem Answers.trace {α : Type} {id : UInt32} {p : Api α} {calls : List Call} {a : α}
    (h : Answers id p) (ht : Prog.Trace p calls a) :
    ∃ before c, calls = before ++ [c] ∧ (∀ x ∈ before, x.Quiet) ∧ c.AnswersTo id :=
  Prog.Ends.trace h ht

theorem Answers.filter_isAnswer {α : Type} {id : UInt32} {p : Api α} {calls : List Call} {a : α}
    (h : Answers id p) (ht : Prog.Trace p calls a) :
    ∃ c : Call, c.AnswersTo id ∧ calls.filter Call.isAnswer = [c] := by
  obtain ⟨before, c, rfl, hquiet, hc⟩ := h.trace ht
  refine ⟨c, hc, ?_⟩
  have hbefore : before.filter Call.isAnswer = [] :=
    List.filter_eq_nil_iff.mpr fun x hx => by simp [(hquiet x hx).not_isAnswer]
  obtain ⟨_, -, hanswer⟩ := hc
  simp [hbefore, hanswer]

theorem Answers.answeredIds {α : Type} {id : UInt32} {p : Api α} {calls : List Call} {a : α}
    (h : Answers id p) (ht : Prog.Trace p calls a) : answeredIds calls = [id] := by
  obtain ⟨c, ⟨type, hframe, -⟩, hcalls⟩ := h.filter_isAnswer ht
  simp [HandlerCalls.answeredIds, hcalls, hframe]

theorem handleEvent_answeredIds {g : Globals} {event : RxEvent} {calls : List Call} {u : Unit}
    (ht : Prog.Trace (handleEvent g event) calls u) :
    answeredIds calls = (answerId event).toList := by
  have h := handleEvent_answers g event
  cases hid : answerId event with
  | none =>
    simp only [hid] at h
    rw [h] at ht
    cases ht
    rfl
  | some id =>
    simp only [hid] at h
    exact h.answeredIds ht

/-- One turn of the loop does what `RxBuffer.parseStep` says, and answers it once. -/
theorem parseTurn_spec {g : Globals} {buffer : Bytes} {calls : List Call} {left : Option Bytes}
    (ht : Prog.Trace (parseTurn g buffer) calls left) :
    match parseStep buffer with
    | .wait => calls = [] ∧ left = none
    | .advance event rest => Prog.Trace (handleEvent g event) calls () ∧ left = some rest := by
  unfold parseTurn at ht
  cases hstep : parseStep buffer with
  | wait =>
    simp only [hstep] at ht
    cases ht
    exact ⟨rfl, rfl⟩
  | advance event rest =>
    simp only [hstep] at ht
    obtain ⟨xs, ys, u, hevent, hpure, rfl⟩ := ht.bind_inv
    cases hpure
    exact ⟨by simpa using hevent, rfl⟩

/-- Over a whole buffer every request is answered once, in the order of the requests,
and so is every frame that is refused. -/
theorem parseRxBuffer_answeredIds {globals : Nat → Globals} {turns : Nat} {buffer : Bytes}
    {calls : List Call} {left : Bytes}
    (ht : Prog.Trace (parseRxBuffer globals turns buffer) calls left) :
    answeredIds calls = (RxBuffer.parseFrom turns buffer).1.filterMap answerId ∧
      left = (RxBuffer.parseFrom turns buffer).2 := by
  induction turns generalizing buffer calls with
  | zero =>
    cases ht
    exact ⟨rfl, rfl⟩
  | succ turns ih =>
    obtain ⟨xs, ys, next, hturn, hrest, rfl⟩ := ht.bind_inv
    have hspec := parseTurn_spec hturn
    rw [RxBuffer.parseFrom]
    cases hstep : parseStep buffer with
    | wait =>
      simp only [hstep] at hspec ⊢
      obtain ⟨rfl, rfl⟩ := hspec
      cases hrest
      exact ⟨rfl, rfl⟩
    | advance event rest =>
      simp only [hstep] at hspec ⊢
      obtain ⟨hevent, rfl⟩ := hspec
      obtain ⟨hids, rfl⟩ := ih hrest
      have hfirst := handleEvent_answeredIds hevent
      refine ⟨?_, rfl⟩
      simp only [answeredIds] at hids hfirst ⊢
      rw [List.filter_append, List.filterMap_append, hids, hfirst]
      cases h : answerId event <;> simp [h]

/-! ## One request -/

/-- What the calls of a run that handles the request `r` are. -/
structure AnsweredOnce (g : Globals) (r : Request) (calls : List Call) : Prop where
  /-- One response or error frame, with the id of the request. -/
  once : ∃ type opcode error, (type = .response ∨ type = .error) ∧
    calls.filter Call.isAnswer = [.sendFrame type opcode r.requestId error]
  events : ∀ opcode id error, Call.sendFrame .event opcode id error ∈ calls → id = 0
  /-- A refused request calls nothing but the error frame. -/
  refused : opcodeRequiresAuth r.opcode = true → g.authenticated = false →
    calls = [.sendFrame .error r.opcode r.requestId (some .authRequired)]

theorem Call.AnswersTo.exists_frame {c : Call} {id : UInt32} (h : c.AnswersTo id) :
    ∃ type opcode error, (type = .response ∨ type = .error) ∧
      c = .sendFrame type opcode id error := by
  obtain ⟨type, hframe, hanswer⟩ := h
  cases c with
  | sendFrame type' opcode requestId error =>
    cases hframe
    refine ⟨type, opcode, error, ?_, rfl⟩
    cases type <;> simp_all [Call.isAnswer, Call.frame]
  | _ => cases hframe

theorem handleRequest_answeredOnce {g : Globals} {r : Request} {calls : List Call} {err : EspErr}
    (ht : Prog.Trace (handleRequest g r) calls err) : AnsweredOnce g r calls := by
  have hanswers := answers_handleRequest g r
  refine ⟨?_, fun opcode id error hmem => ?_, fun hauth hg => ?_⟩
  · obtain ⟨c, hc, hcalls⟩ := hanswers.filter_isAnswer ht
    obtain ⟨type, opcode, error, htype, rfl⟩ := hc.exists_frame
    exact ⟨type, opcode, error, htype, hcalls⟩
  · obtain ⟨before, c, rfl, hquiet, hc⟩ := hanswers.trace ht
    obtain ⟨type, _, _, htype, rfl⟩ := hc.exists_frame
    rcases List.mem_append.mp hmem with hmem | hmem
    · cases hquiet _ hmem
    · cases List.mem_singleton.mp hmem
      rcases htype with htype | htype <;> cases htype
  · rw [handleRequest, if_pos ⟨hauth, by simp [hg]⟩] at ht
    cases ht with
    | call _ ht =>
      cases ht
      rfl

/-- A complete request frame at the front of the buffer is answered once, whatever it
asks for, whatever its payload and whatever the services return. -/
theorem one_answer (g : Globals) {r : Request} (hr : WellFormed r) (rest : Bytes) :
    (∃ calls left, Prog.Trace (parseTurn g (encodeRequest r ++ rest)) calls left) ∧
    ∀ calls left, Prog.Trace (parseTurn g (encodeRequest r ++ rest)) calls left →
      left = some rest ∧ AnsweredOnce g r calls := by
  refine ⟨exists_run _, fun calls left ht => ?_⟩
  have hspec := parseTurn_spec ht
  simp only [parseStep_encodeRequest rest hr] at hspec
  obtain ⟨hevent, rfl⟩ := hspec
  obtain ⟨xs, ys, err, hrequest, hpure, rfl⟩ := hevent.bind_inv
  cases hpure
  rw [List.append_nil]
  exact ⟨rfl, handleRequest_answeredOnce hrequest⟩

/-- A reboot asked for by a client that is not authenticated. -/
theorem one_answer_reboot :
    (∃ calls left, Prog.Trace (parseTurn ⟨false, false, []⟩
      (encodeRequest ⟨Opcode.systemReboot.code, 9, []⟩ ++ [])) calls left) ∧
    ∀ calls left, Prog.Trace (parseTurn ⟨false, false, []⟩
        (encodeRequest ⟨Opcode.systemReboot.code, 9, []⟩ ++ [])) calls left →
      left = some [] ∧ AnsweredOnce ⟨false, false, []⟩ ⟨Opcode.systemReboot.code, 9, []⟩ calls :=
  one_answer _ (by decide) []

end Jukeboy.CompanionApi.HandlerCalls
