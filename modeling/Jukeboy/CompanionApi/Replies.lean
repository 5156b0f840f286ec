import Jukeboy.CompanionApi.Task
import Jukeboy.CompanionApi.TlvRoundTrip

/-! # The shape of the replies

Whatever a request asks for, its reply fits into a frame, carries the id of the request
and is a response, or the error frame of `companion_api_send_error`. What the task sends
of its own accord is an event or a heartbeat. -/
namespace Jukeboy.CompanionApi.Replies

open Jukeboy.Base Jukeboy.CompanionApi.Tlv Jukeboy.CompanionApi.Protocol
open Jukeboy.CompanionApi.ServiceHandlers Jukeboy.CompanionApi.RequestHandlers
open Jukeboy.CompanionApi.TrustedStore Jukeboy.CompanionApi.Task
open Jukeboy.CompanionApi.RxBuffer (Request)

/-! ## TLVs that fit -/

/-- The TLVs have room behind a header. -/
def Fits (w : Writer) : Prop := Writer.len w ≤ writerCapacity

variable {w : Writer}

@[simp] theorem fits_nil : Fits [] := Nat.zero_le _

theorem fits_tryAppend {w' : Writer} {type : TlvType} {value : Bytes}
    (h : tryAppend w type value = some w') : Fits w' := by
  unfold tryAppend at h
  split at h
  · cases h
  · next hroom =>
    cases h
    have hlen : Writer.len (w ++ [⟨type, value⟩]) =
        Writer.len w + (tlvHeaderLen + value.length) := by
      simp [Writer.len, TlvEntry.size]
    unfold Fits
    omega

@[simp] theorem fits_append (h : Fits w) (type : TlvType) (value : Bytes) :
    Fits (append w type value) := by
  unfold append
  cases happend : tryAppend w type value with
  | none => exact h
  | some w' => exact fits_tryAppend happend

@[simp] theorem fits_appendBool (h : Fits w) (type : TlvType) (v : Bool) :
    Fits (appendBool w type v) := fits_append h type _

@[simp] theorem fits_appendU8 (h : Fits w) (type : TlvType) (v : UInt8) :
    Fits (appendU8 w type v) := fits_append h type _

@[simp] theorem fits_appendU16 (h : Fits w) (type : TlvType) (v : UInt16) :
    Fits (appendU16 w type v) := fits_append h type _

@[simp] theorem fits_appendU32 (h : Fits w) (type : TlvType) (v : UInt32) :
    Fits (appendU32 w type v) := fits_append h type _

@[simp] theorem fits_appendString (h : Fits w) (type : TlvType) (v : Bytes) :
    Fits (appendString w type v) := fits_append h type _

@[simp] theorem fits_appendAll (h : Fits w) (entries : List (TlvType × Bytes)) :
    Fits (appendAll w entries) := by
  induction entries generalizing w with
  | nil => exact h
  | cons entry entries ih => exact ih (fits_append h entry.1 entry.2)

theorem fits_appendEntry {w' : Writer} {entry : List (TlvType × Bytes)} (h : Fits w)
    (hentry : appendEntry w entry = some w') : Fits w' := by
  induction entry generalizing w with
  | nil =>
    cases hentry
    exact h
  | cons head entry ih =>
    obtain ⟨w₁, hhead, hrest⟩ := Option.bind_eq_some_iff.mp hentry
    exact ih (fits_tryAppend hhead) hrest

theorem fits_pageLoop (h : Fits w) (item : UInt32 → PageItem) (count : Nat) (position : UInt32)
    (returned : UInt32) : Fits (pageLoop item count position w returned).1 := by
  induction count generalizing w position returned with
  | zero => exact h
  | succ count ih =>
    rw [pageLoop]
    cases item position with
    | stop => exact h
    | skip => exact ih h _ _
    | entry tlvs =>
      dsimp only
      cases hentry : appendEntry w tlvs with
      | none => exact h
      | some w' => exact ih (fits_appendEntry h hentry) _ _

@[simp] theorem fits_appendEntries (h : Fits w) (entries : List (List (TlvType × Bytes))) :
    Fits (appendEntries w entries) := by
  induction entries generalizing w with
  | nil => exact h
  | cons entry entries ih =>
    rw [appendEntries]
    cases hentry : appendEntry w entry with
    | none => exact h
    | some w' => exact ih (fits_appendEntry h hentry)

theorem fits_scriptListLoop (h : Fits w) (entries : List (List (TlvType × Bytes)))
    (returned : UInt32) : Fits (scriptListLoop w returned entries).1 := by
  induction entries generalizing w returned with
  | nil => exact h
  | cons entry entries ih =>
    rw [scriptListLoop]
    cases hentry : appendEntry w entry with
    | none => exact h
    | some w' => exact ih (fits_appendEntry h hentry) _

/-! ## Status TLVs -/

variable {sv : Services}

@[simp] theorem fits_appendPlaybackStatus (h : Fits w) : Fits (appendPlaybackStatus sv w) := by
  unfold appendPlaybackStatus
  cases sv.playerSnapshot with
  | none => exact h
  | some p => exact fits_appendAll h _

@[simp] theorem fits_appendCartridgeStatus (h : Fits w) : Fits (appendCartridgeStatus sv w) :=
  fits_appendAll h _

@[simp] theorem fits_appendWifiStatus (h : Fits w) : Fits (appendWifiStatus sv w) := by
  unfold appendWifiStatus
  cases sv.wifi.ipInfo with
  | none => exact fits_appendAll h _
  | some addr => exact fits_appendU32 (fits_appendAll h _) _ _

@[simp] theorem fits_appendLastfmStatus (h : Fits w) : Fits (appendLastfmStatus sv w) :=
  fits_appendAll h _

@[simp] theorem fits_appendHistorySummary (h : Fits w) : Fits (appendHistorySummary sv w) :=
  fits_appendAll h _

@[simp] theorem fits_appendBtAudioStatus (h : Fits w) : Fits (appendBtAudioStatus sv w) :=
  fits_appendAll h _

@[simp] theorem fits_appendOutputStatus (h : Fits w) : Fits (appendOutputStatus sv w) :=
  fits_appendAll h _

@[simp] theorem fits_appendScriptRunResult (h : Fits w) (run : ScriptRun) :
    Fits (appendScriptRunResult run w) := fits_appendAll h _

@[simp] theorem fits_appendScriptStatus (h : Fits w) : Fits (appendScriptStatus sv w) := by
  unfold appendScriptStatus
  split
  · exact fits_appendU8 h _ _
  · exact fits_appendScriptRunResult (fits_appendBool (fits_appendU8 h _ _) _ _) _
  · exact fits_appendScriptRunResult (fits_appendBool (fits_appendU8 h _ _) _ _) _
  · exact fits_appendU8 h _ _

@[simp] theorem fits_statusOk : Fits statusOk := fits_appendU16 fits_nil _ _

@[simp] theorem fits_appendPairingStatus (h : Fits w) (p : Pairing) :
    Fits (appendPairingStatus p w) := by
  unfold appendPairingStatus
  split <;> simp [h]

@[simp] theorem fits_appendAuthStatus (h : Fits w) (s : Session) : Fits (appendAuthStatus s w) :=
  fits_appendAll h _

theorem fits_snapshotTlvs (wd : World) (generation : UInt32) (s : Session) :
    Fits (snapshotTlvs wd generation s) := by
  have hhead : Fits (appendPairingStatus s.pairing (appendAuthStatus s
      (appendU32 (appendU32 [] .generation generation) .uptimeMs wd.uptimeMs))) :=
    fits_appendPairingStatus (fits_appendAuthStatus (by simp) s) s.pairing
  have hcartridge : Fits (appendCartridgeStatus wd.services (appendPlaybackStatus wd.services
      (appendPairingStatus s.pairing (appendAuthStatus s
        (appendU32 (appendU32 [] .generation generation) .uptimeMs wd.uptimeMs))))) :=
    fits_appendCartridgeStatus (fits_appendPlaybackStatus hhead)
  exact fits_appendBtAudioStatus (fits_appendHistorySummary
    (fits_appendLastfmStatus (fits_appendWifiStatus hcartridge)))

/-! ## Answers of the other services -/

/-- The TLVs of an answer fit. -/
def BodyFits : AnswerBody → Prop
  | .ok w => Fits w
  | _ => True

@[simp] theorem bodyFits_error (e : ApiError) : BodyFits (Answer.error e).body := trivial

@[simp] theorem bodyFits_show : BodyFits (Answer.show w).body ↔ Fits w := Iff.rfl

@[simp] theorem bodyFits_ofCall {call : ServiceCall} {body : AnswerBody} (h : BodyFits body) :
    BodyFits (Answer.ofCall sv call body).body := by
  unfold Answer.ofCall
  split
  · exact h
  · trivial

@[simp] theorem bodyFits_failed (e : ApiError) : BodyFits (.error e) := trivial

@[simp] theorem bodyFits_snapshot : BodyFits .snapshot := trivial

@[simp] theorem bodyFits_ok : BodyFits (.ok w) ↔ Fits w := Iff.rfl

@[simp] theorem bodyFits_page {payload : Bytes} {most : UInt32} {item : UInt32 → PageItem}
    (h : Fits w) : BodyFits (page payload most w item).body :=
  fits_appendU32 (fits_pageLoop h item _ _ _) _ _

variable (sv) (payload : Bytes)

theorem bodyFits_handlePlaybackControl : BodyFits (handlePlaybackControl sv payload).body := by
  unfold handlePlaybackControl
  split
  · simp
  · dsimp only
    split
    · simp
    · split <;> simp
    · simp

theorem bodyFits_handleOutputSelect : BodyFits (handleOutputSelect sv payload).body := by
  unfold handleOutputSelect
  split
  · simp
  · split <;> simp

theorem bodyFits_handleLibraryCover : BodyFits (handleLibraryCover sv payload).body := by
  unfold handleLibraryCover
  dsimp only
  iterate 4 split; · simp
  split
  · simp
  · iterate 3 split; · simp
    rw [bodyFits_show]
    split <;> simp

theorem bodyFits_handleBtScanResults : BodyFits (handleBtScanResults sv).body := by
  unfold handleBtScanResults
  split <;> simp

theorem bodyFits_handleBtBondedList : BodyFits (handleBtBondedList sv).body := by
  unfold handleBtBondedList
  split <;> simp

theorem bodyFits_handleBtUnbond : BodyFits (handleBtUnbond sv payload).body := by
  unfold handleBtUnbond
  split
  · simp
  · split <;> simp

theorem bodyFits_handleWifiSaveSlot : BodyFits (handleWifiSaveSlot sv payload).body := by
  unfold handleWifiSaveSlot
  split
  · split <;> simp
  · simp

theorem bodyFits_handleHidLedSet : BodyFits (handleHidLedSet sv payload).body := by
  unfold handleHidLedSet
  split
  · simp
  · dsimp only
    split <;> simp

theorem bodyFits_handleScriptList : BodyFits (handleScriptList sv payload).body := by
  unfold handleScriptList
  dsimp only
  split
  · simp
  · split
    · simp
    · exact fits_appendU32 (fits_scriptListLoop (fits_appendString fits_nil _ _) _ _) _ _

theorem bodyFits_handleScriptLog : BodyFits (handleScriptLog sv payload).body := by
  unfold handleScriptLog
  dsimp only
  split
  · simp
  · simp
  · split
    · simp
    · iterate 2 split; · simp
      split
      · simp
      · split
        · simp
        · rw [bodyFits_show]
          split <;> simp

theorem bodyFits_handleScriptRun : BodyFits (handleScriptRun sv payload).body := by
  unfold handleScriptRun
  split
  · simp
  · simp
  · exact bodyFits_ofCall (fits_appendScriptRunResult (fits_appendString fits_statusOk _ _) _)

theorem bodyFits_handleSystemReboot (downloadMode : Bool) :
    BodyFits (handleSystemReboot sv downloadMode).body := by
  unfold handleSystemReboot
  dsimp only
  split <;> simp

theorem bodyFits_serviceAnswer (op : Opcode) : BodyFits (serviceAnswer sv payload op).body := by
  unfold serviceAnswer
  split
  · exact bodyFits_handlePlaybackControl sv payload
  · simp [handleOutputStatus]
  · exact bodyFits_handleOutputSelect sv payload
  · simp [handleLibraryAlbum]
  · simp [handleTrackPage]
  · exact bodyFits_handleLibraryCover sv payload
  · simp [handleWifiScanStart]
  · unfold handleWifiScanResults
    split <;> simp
  · unfold handleWifiConnect
    split <;> simp
  · unfold handleWifiConnectSlot
    split <;> simp
  · simp [handleWifiDisconnect]
  · unfold handleWifiAutoreconnect
    split <;> simp
  · unfold handleWifiListSlots
    split <;> simp
  · exact bodyFits_handleWifiSaveSlot sv payload
  · simp [handleWifiReconnect]
  · unfold handleLastfmControl
    split <;> simp
  · simp [handleLastfmRequestToken]
  · simp [handleHistoryAlbumPage]
  · unfold handleHistoryTrackPage
    split <;> simp
  · simp [handleHistoryClear]
  · unfold handleBtAudioControl
    split <;> simp
  · simp [handleBtScanStart]
  · exact bodyFits_handleBtScanResults sv
  · exact bodyFits_handleBtBondedList sv
  · exact bodyFits_handleBtUnbond sv payload
  · simp [handleHidStatus]
  · exact bodyFits_handleHidLedSet sv payload
  · simp [handleScriptStatus]
  · exact bodyFits_handleScriptList sv payload
  · exact bodyFits_handleScriptLog sv payload
  · exact bodyFits_handleScriptRun sv payload
  · exact bodyFits_handleSystemReboot sv false
  · exact bodyFits_handleSystemReboot sv true
  · trivial

/-! ## Replies -/

/-- A payload that fits behind a header; an error frame is one that
`companion_api_send_error` sends. -/
structure Sound (r : Reply) : Prop where
  fits : ∀ p, r.body = .payload p → payloadLen p ≤ writerCapacity
  error : r.type = .error → ∃ e, r = sendError r.opcode r.requestId e

/-- The reply answers the request with this id. -/
structure Answers (id : UInt32) (r : Reply) : Prop where
  requestId : r.requestId = id
  type : r.type = .response ∨ r.type = .error
  sound : Sound r

theorem answers_sendError (opcode : UInt16) (id : UInt32) (e : ApiError) :
    Answers id (sendError opcode id e) := by
  refine ⟨rfl, .inr rfl, ⟨?_, fun _ => ⟨e, rfl⟩⟩⟩
  intro p hp
  cases hp
  exact fits_appendString (fits_appendU16 fits_nil _ _) _ _

theorem answers_response {body : Body} {opcode : UInt16} {id : UInt32}
    (hbody : ∀ p, body = .payload p → payloadLen p ≤ writerCapacity) :
    Answers id ⟨.response, opcode, id, body⟩ :=
  ⟨rfl, .inl rfl, hbody, fun h => by cases h⟩

theorem answers_sendOk {opcode : UInt16} {id : UInt32} (h : Fits w) :
    Answers id (sendOk opcode id w) := by
  refine answers_response ?_
  intro p hp
  cases hp
  exact h

theorem answers_sendPairingStatus (id : UInt32) (p : Pairing) :
    Answers id (sendPairingStatus id .response p) :=
  answers_sendOk (fits_appendPairingStatus fits_nil p)

theorem fits_trustedListTlvs (nvs : Nvs) (store : Store) : Fits (trustedListTlvs nvs store) :=
  fits_appendAll (fits_appendU8 fits_nil _ _) _

/-- The handler sends one answer. -/
def RepliesOnce (id : UInt32) (o : Outcome) : Prop := ∃ r, o.reply = some r ∧ Answers id r

theorem replies_say {id : UInt32} {s : Session} {r : Reply} (h : Answers id r) :
    RepliesOnce id (.say s r) := ⟨r, rfl, h⟩

variable (r : Request) (s : Session) (inp : Inputs)

theorem replies_handlePairBegin (link : Nat) :
    RepliesOnce r.requestId (handlePairBegin inp link r s) := by
  unfold handlePairBegin
  dsimp only
  split
  · split
    · exact replies_say (answers_sendError _ _ _)
    · split
      · exact replies_say (answers_sendError _ _ _)
      · exact ⟨_, rfl, answers_sendPairingStatus _ _⟩
  · exact replies_say (answers_sendError _ _ _)

theorem replies_handleAuthChallenge : RepliesOnce r.requestId (handleAuthChallenge inp r s) := by
  unfold handleAuthChallenge
  dsimp only
  split
  · exact replies_say (answers_sendError _ _ _)
  · split
    · exact replies_say (answers_sendError _ _ _)
    · exact ⟨_, rfl, answers_sendOk (fits_append (fits_appendString fits_nil _ _) _ _)⟩

theorem replies_handleAuthProof (hmac : Hmac) (link : Nat) :
    RepliesOnce r.requestId (handleAuthProof hmac inp link r s) := by
  unfold handleAuthProof
  dsimp only
  split
  · split
    · exact replies_say (answers_sendError _ _ _)
    · split
      · exact replies_say (answers_sendError _ _ _)
      · split
        · exact replies_say (answers_sendError _ _ _)
        · exact ⟨_, rfl, answers_sendOk (fits_appendAuthStatus fits_nil _)⟩
  · exact replies_say (answers_sendError _ _ _)

theorem replies_handleTrustedRevoke : RepliesOnce r.requestId (handleTrustedRevoke inp r s) := by
  unfold handleTrustedRevoke
  split
  · exact replies_say (answers_sendError _ _ _)
  · dsimp only
    split
    · exact ⟨_, rfl, answers_sendError _ _ _⟩
    · exact ⟨_, rfl, answers_sendOk (fits_trustedListTlvs _ _)⟩

theorem replies_handlePing : RepliesOnce r.requestId (handlePing r s) := by
  unfold handlePing
  split
  · exact replies_say (answers_sendError _ _ _)
  · next hlen =>
    refine replies_say (answers_response ?_)
    intro p hp
    cases hp
    exact Nat.not_lt.mp hlen

theorem replies_answerOutcome {a : Answer} (h : BodyFits a.body) :
    RepliesOnce r.requestId (answerOutcome a r s) := by
  unfold answerOutcome
  refine ⟨_, rfl, ?_⟩
  cases hbody : a.body with
  | error e => exact answers_sendError _ _ _
  | ok w =>
    rw [hbody] at h
    exact answers_sendOk h
  | snapshot =>
    refine answers_response ?_
    intro p hp
    cases hp

/-- **Every request is answered**: with its own id, by a response or an error that fits. -/
theorem replies_handleRequest (hmac : Hmac) (wd : World) (link : Nat) :
    RepliesOnce r.requestId (handleRequest hmac wd link r s) := by
  unfold handleRequest
  split
  · exact replies_say (answers_sendError _ _ _)
  · show RepliesOnce r.requestId (dispatch hmac wd link r s)
    unfold dispatch
    split
    · exact replies_say (answers_sendOk (fits_appendAuthStatus (by simp) s))
    · exact replies_say (answers_sendOk
        (fits_appendPairingStatus (fits_appendAuthStatus (by simp) s) _))
    · exact replies_handlePing r s
    · exact replies_handlePairBegin r s _ link
    · exact replies_say (answers_sendPairingStatus _ _)
    · exact ⟨_, rfl, answers_sendPairingStatus _ _⟩
    · exact replies_handleAuthChallenge r s _
    · exact replies_handleAuthProof r s _ hmac link
    · exact replies_say (answers_sendOk (fits_trustedListTlvs _ _))
    · exact replies_handleTrustedRevoke r s _
    · exact replies_answerOutcome r s (bodyFits_serviceAnswer _ _ _)
    · exact replies_say (answers_sendError _ _ _)

/-! ## What the task sends of its own accord -/

/-- An event, for nobody's request. -/
structure Announces (r : Reply) : Prop where
  requestId : r.requestId = 0
  type : r.type = .event ∨ r.type = .heartbeat
  sound : Sound r

theorem announces_payload {type : FrameType} {opcode : UInt16} (h : Fits w)
    (htype : type = .event ∨ type = .heartbeat) :
    Announces ⟨type, opcode, 0, .payload (.tlvs w)⟩ := by
  refine ⟨rfl, htype, ?_, ?_⟩
  · intro p hp
    cases hp
    exact h
  · intro herror
    obtain htype | htype := htype
    · cases herror.symm.trans htype
    · cases herror.symm.trans htype

theorem announces_sendPairingStatus (p : Pairing) :
    Announces (sendPairingStatus 0 .event p) :=
  announces_payload (fits_appendPairingStatus fits_nil p) (.inl rfl)

theorem announces_snapshotEvent (opcode : UInt16) :
    Announces ⟨.event, opcode, 0, .snapshot⟩ := by
  refine ⟨rfl, .inl rfl, ?_, fun h => by cases h⟩
  intro p hp
  cases hp

/-- What a handler sends, if anything, announces something. -/
def AnnouncesOnly (o : Outcome) : Prop := ∀ r, o.reply = some r → Announces r

theorem announcesOnly_completePairing : AnnouncesOnly (completePairing inp s) := by
  intro r hr
  unfold completePairing at hr
  dsimp only at hr
  split at hr
  · cases hr
  · split at hr
    · cases hr
    · cases hr
      exact announces_sendPairingStatus _

theorem announcesOnly_applyPairingButton (button : UInt8) :
    AnnouncesOnly (applyPairingButton inp button s) := by
  intro r hr
  unfold applyPairingButton at hr
  dsimp only at hr
  split at hr
  · cases hr
  · split at hr
    · cases hr
    · split at hr
      · cases hr
        exact announces_sendPairingStatus _
      · split at hr
        · exact announcesOnly_completePairing _ _ r hr
        · cases hr
          exact announces_sendPairingStatus _

theorem announcesOnly_msgOutcome (wd : World) (m : Msg) : AnnouncesOnly (msgOutcome wd s m) := by
  intro r hr
  cases m with
  | rxChunk link bytes => cases hr
  | hidButton button => exact announcesOnly_applyPairingButton _ _ button r hr
  | consoleConfirmPairing => exact announcesOnly_completePairing _ _ r hr
  | consoleCancelPairing =>
    cases hr
    exact announces_sendPairingStatus _
  | consoleRevokeClient clientId => cases hr
  | consoleRevokeAll => cases hr
  | linkConnected =>
    cases hr
    exact announces_snapshotEvent _
  | linkDisconnected =>
    cases hr
    exact announces_snapshotEvent _
  | stateEvent opcode =>
    cases hr
    exact announces_snapshotEvent _

theorem fits_heartbeatTlvs (wd : World) (t : State) : Fits (heartbeatTlvs wd t) :=
  fits_appendAll fits_nil _

/-! ## Frames on the wire -/

open Jukeboy.CompanionApi.BleClient Jukeboy.CompanionApi.TlvRoundTrip

/-- The frame on the wire. -/
def wire (f : Frame) : WireFrame := ⟨f.type, f.opcode, f.requestId, f.payload.encode⟩

theorem encode_wire (f : Frame) : (wire f).encode = f.encode := (wire f).encode_eq_encodeFrame

theorem length_encode_payload (p : Payload) : p.encode.length = payloadLen p := by
  cases p with
  | echo bytes => rfl
  | tlvs w =>
    show (w.flatMap TlvEntry.encode).length = (w.map TlvEntry.size).sum
    rw [List.length_flatMap]
    refine congrArg List.sum (List.map_congr_left fun t _ => ?_)
    simp only [TlvEntry.encode, TlvEntry.size, List.length_append, length_u16Bytes,
      LittleEndian.length_leBytes, tlvHeaderLen]

theorem short_wire {f : Frame} (h : payloadLen f.payload ≤ writerCapacity) : (wire f).Short := by
  show headerLen + f.payload.encode.length ≤ frameMaxLen
  rw [length_encode_payload]
  unfold writerCapacity headerLen frameMaxLen at h
  unfold headerLen frameMaxLen
  omega

/-- The TLVs of an error frame. -/
def errorEntries (e : ApiError) : List (TlvType × Bytes) :=
  [(.errorCode, u16Bytes e.code), (.errorMessage, ascii (errorName e))]

theorem length_errorName (e : ApiError) : (ascii (errorName e)).length ≤ 32 := by
  cases e <;> decide +kernel

theorem errorEntries_spec (e : ApiError) :
    appendString (appendU16 [] .errorCode e.code) .errorMessage (ascii (errorName e)) =
      (errorEntries e).map toTlv := by
  have hname := length_errorName e
  have hwhole : stringBytes (ascii (errorName e)) = ascii (errorName e) :=
    List.take_of_length_le (by omega)
  show appendAll [] [(.errorCode, u16Bytes e.code),
    (.errorMessage, stringBytes (ascii (errorName e)))] = _
  rw [hwhole, appendAll_fits]
  · rfl
  · show 0 + size (errorEntries e) ≤ writerCapacity
    simp only [errorEntries, size_cons, size_nil, length_u16Bytes, tlvHeaderLen, writerCapacity,
      frameMaxLen, headerLen]
    omega

theorem parseTlvs_error (e : ApiError) :
    parseTlvs (((errorEntries e).map toTlv).flatMap TlvEntry.encode) =
      some ((errorEntries e).map toRaw) := by
  refine parseTlvsFrom_encode ?_ (Nat.le_refl _)
  have hname := length_errorName e
  intro entry hmem
  simp only [errorEntries, List.mem_cons, List.not_mem_nil, or_false] at hmem
  obtain rfl | rfl := hmem
  · show (u16Bytes e.code).length < 65536
    rw [length_u16Bytes]
    omega
  · show (ascii (errorName e)).length < 65536
    omega

/-- The frame of a reply, when it is sent in this state. -/
def sentFrame (r : Reply) (wd : World) (t : State) : WireFrame := wire (replyFrame r wd t)

theorem decoded_sendError (opcode : UInt16) (id : UInt32) (e : ApiError) (wd : World)
    (t : State) : ∃ payload, (sentFrame (sendError opcode id e) wd t).decoded =
      ⟨.error, opcode, id, payload, some ((errorEntries e).map toRaw)⟩ := by
  refine ⟨(sentFrame (sendError opcode id e) wd t).payload, ?_⟩
  rw [← parseTlvs_error, ← errorEntries_spec]
  rfl

/-- What the client tells its caller of an error frame. -/
theorem errorAnswer_sendError (opcode : UInt16) (id : UInt32) (e : ApiError) (wd : World)
    (t : State) : Requests.errorAnswer (sentFrame (sendError opcode id e) wd t).decoded =
      some (.error opcode id e.code.toNat (ascii (errorName e))) := by
  obtain ⟨payload, hdecoded⟩ := decoded_sendError opcode id e wd t
  have hcode : readU16 (u16Bytes e.code) = e.code := by
    have hread := Chunking.readU16_u16Bytes e.code []
    rwa [List.append_nil] at hread
  have hfirst : tlvFirst ((errorEntries e).map toRaw) .errorCode = some (u16Bytes e.code) := rfl
  have hsecond : tlvFirst ((errorEntries e).map toRaw) .errorMessage =
      some (ascii (errorName e)) := rfl
  rw [hdecoded, Requests.errorAnswer]
  simp only [Option.getD_some, hfirst, hsecond, length_u16Bytes, if_true, hcode]

theorem wellFormed_sentFrame {r : Reply} (h : Sound r) (wd : World) (t : State) :
    (sentFrame r wd t).WellFormed := by
  refine ⟨short_wire ?_, fun htype => ?_⟩
  · unfold replyFrame
    cases hbody : r.body with
    | payload p => exact h.fits p hbody
    | snapshot => exact fits_snapshotTlvs _ _ _
  · obtain ⟨e, he⟩ := h.error htype
    rw [he, errorAnswer_sendError]
    rfl

/-- A frame is the answer to a request, or an event. -/
def isAnswer (f : WireFrame) : Bool := f.type == .response || f.type == .error

theorem isAnswer_sentFrame {id : UInt32} {r : Reply} (h : Answers id r) (wd : World) (t : State) :
    isAnswer (sentFrame r wd t) = true ∧ (sentFrame r wd t).requestId = id := by
  refine ⟨?_, h.requestId⟩
  show (r.type == .response || r.type == .error) = true
  obtain htype | htype := h.type
  · rw [htype]
    rfl
  · rw [htype]
    rfl

theorem isAnswer_announcement {r : Reply} (h : Announces r) (wd : World) (t : State) :
    isAnswer (sentFrame r wd t) = false := by
  show (r.type == .response || r.type == .error) = false
  obtain htype | htype := h.type
  · rw [htype]
    rfl
  · rw [htype]
    rfl

end Jukeboy.CompanionApi.Replies
