import Jukeboy.Base.Runs
import Jukeboy.CompanionApi.BleClient

/-! # The client over several connections

One client connects and disconnects. On each connection the device sends whole frames,
but the notifications may end in the middle of one. -/
namespace Jukeboy.CompanionApi.Reassembly

open Jukeboy.Base.Framing Jukeboy.Base.Runs
open Jukeboy.CompanionApi.Tlv Jukeboy.CompanionApi.Protocol Jukeboy.CompanionApi.BleClient

/-! ## Connections -/

/-- What happens on a connection: a notification is processed, or one of the client's
own requests goes on. -/
inductive Action where
  | notify (data : Bytes)
  | request
  | writeFailed (id : Nat)
  | timeout (id : Nat)
deriving DecidableEq, Repr

def Action.data : Action → Bytes
  | .notify data => data
  | _ => []

/-- What an action does to the requests beside the frames that arrive. -/
def Action.own (r : Requests) : Action → Requests
  | .notify _ => r
  | .request => r.request
  | .writeFailed id => r.pop id
  | .timeout id => r.timeout id

def act (c : Client) : Action → Client
  | .notify data => c.processNotification data
  | action => { c with requests := action.own c.requests }

/-- The bytes of all notifications. -/
def delivered (actions : List Action) : Bytes := actions.flatMap Action.data

/-- A connection: well-formed frames, and notifications that cut a part of their bytes. -/
structure Session where
  frames : List WireFrame
  actions : List Action
  wellFormed : ∀ f ∈ frames, f.WellFormed
  cut : delivered actions <+: stream WireFrame.encode frames

/-- `connect`, what happens while connected, and the disconnection: `_fail_pending`. -/
def connection (c : Client) (s : Session) : Client :=
  let c := s.actions.foldl act c
  { c with requests := c.requests.failPending }

def next (c : Client) (s : Session) : Option Client := some (connection c s)

/-! ## What a connection is for -/

/-- The frames that the device has sent completely. -/
def Session.sent (s : Session) : List WireFrame :=
  whole WireFrame.encode s.frames (delivered s.actions).length

/-- The requests after some actions, when each frame is received with the notification
that completes it; `n` bytes arrived before. -/
def expected (frames : List WireFrame) : List Action → Nat → Requests → Requests
  | [], _, r => r
  | action :: actions, n, r =>
    let arrived := n + action.data.length
    let completed := (whole WireFrame.encode frames arrived).drop
      (whole WireFrame.encode frames n).length
    expected frames actions arrived
      (completed.foldl (fun r f => r.receive f.decoded) (action.own r))

/-- The frames sent completely are taken out once and in order, and received in time. -/
structure Received (c : Client) (s : Session) : Prop where
  taken : (connection c s).taken = c.taken ++ s.sent.map WireFrame.encode
  requests : (connection c s).requests =
    (expected s.frames s.actions 0 c.requests).failPending

/-- Nothing is left in the buffer that a reader does not skip. -/
def Clean (c : Client) (_ : Session) : Prop := ∀ b ∈ c.rxBuffer, b = magic0

instance (c : Client) (s : Session) : Decidable (Clean c s) :=
  inferInstanceAs (Decidable (∀ b ∈ c.rxBuffer, b = magic0))

/-! ## One connection -/

variable {c : Client} {s : Session} {frames done rest : List WireFrame} {left t : Bytes}
  {n : Nat}

/-- The client in the middle of a connection. -/
structure Reading (frames done rest : List WireFrame) (left : Bytes) (c : Client) : Prop where
  frames_eq : frames = done ++ rest
  part : Partial WireFrame.encode rest left
  buffer : ∃ n, c.rxBuffer = List.replicate n magic0 ++ left

/-- The bytes that have arrived. -/
theorem Reading.whole_eq (h : Reading frames done rest left c) :
    whole WireFrame.encode frames (stream WireFrame.encode done ++ left).length = done := by
  rw [h.frames_eq]
  exact whole_append h.part

/-- An action takes the frames it completes, and receives them. -/
structure Takes (frames done rest : List WireFrame) (left t : Bytes) (c : Client)
    (action : Action) (completed rest' : List WireFrame) (left' : Bytes) : Prop where
  reading : Reading frames (done ++ completed) rest' left' (act c action)
  bytes : left ++ action.data = stream WireFrame.encode completed ++ left'
  ahead : left' ++ t = stream WireFrame.encode rest'
  taken : (act c action).taken = c.taken ++ completed.map WireFrame.encode
  requests : (act c action).requests =
    completed.foldl (fun r f => r.receive f.decoded) (action.own c.requests)

theorem notify_takes (hwf : ∀ f ∈ frames, f.WellFormed) (h : Reading frames done rest left c)
    {data : Bytes} (ht : left ++ data ++ t = stream WireFrame.encode rest) :
    ∃ completed rest' left', Takes frames done rest left t c (.notify data) completed rest' left' := by
  obtain ⟨hframes, hpart, n, hbuffer⟩ := h
  have hwf' : ∀ f ∈ rest, f.WellFormed := fun f hf =>
    hwf f (hframes ▸ List.mem_append_right done hf)
  obtain ⟨n', completed, rest', left', rfl, hb, hleft, hpart', hprocess⟩ :=
    processNotification_eq hwf' hbuffer ht
  have hact : act c (.notify data) =
      c.receiveAll completed (List.replicate n' magic0 ++ left') := hprocess
  refine ⟨completed, rest', left', ⟨?_, hpart', n', ?_⟩, hb, hleft, ?_, ?_⟩
  · rw [hframes, List.append_assoc]
  · rw [hact]
    rfl
  · rw [hact]
    rfl
  · rw [hact]
    rfl

theorem own_takes (h : Reading frames done rest left c) {action : Action}
    (hdata : action.data = []) (hact : act c action = { c with requests := action.own c.requests })
    (ht : left ++ action.data ++ t = stream WireFrame.encode rest) :
    Takes frames done rest left t c action [] rest left := by
  obtain ⟨hframes, hpart, n, hbuffer⟩ := h
  rw [hdata, List.append_nil] at ht
  refine ⟨⟨by rw [List.append_nil, hframes], hpart, n, ?_⟩, ?_, ht, ?_, ?_⟩
  · rw [hact]
    exact hbuffer
  · rw [hdata, List.append_nil]
    rfl
  · rw [hact]
    exact (List.append_nil _).symm
  · rw [hact]
    rfl

theorem act_takes (hwf : ∀ f ∈ frames, f.WellFormed) (h : Reading frames done rest left c)
    {action : Action} (ht : left ++ action.data ++ t = stream WireFrame.encode rest) :
    ∃ completed rest' left', Takes frames done rest left t c action completed rest' left' := by
  cases action with
  | notify data => exact notify_takes hwf h ht
  | request => exact ⟨[], rest, left, own_takes h rfl rfl ht⟩
  | writeFailed id => exact ⟨[], rest, left, own_takes h rfl rfl ht⟩
  | timeout id => exact ⟨[], rest, left, own_takes h rfl rfl ht⟩

/-- The actions take the frames they complete, each with the action that completes it. -/
theorem actions_reading (hwf : ∀ f ∈ frames, f.WellFormed) (h : Reading frames done rest left c)
    (actions : List Action)
    (ht : left ++ delivered actions ++ t = stream WireFrame.encode rest) :
    ∃ completed rest' left', Reading frames (done ++ completed) rest' left'
        (actions.foldl act c) ∧
      left ++ delivered actions = stream WireFrame.encode completed ++ left' ∧
      (actions.foldl act c).taken = c.taken ++ completed.map WireFrame.encode ∧
      (actions.foldl act c).requests = expected frames actions
        (stream WireFrame.encode done ++ left).length c.requests := by
  induction actions generalizing c done rest left with
  | nil =>
    exact ⟨[], rest, left, by rwa [List.append_nil], List.append_nil _, (List.append_nil _).symm,
      rfl⟩
  | cons action actions ih =>
    have hdelivered : delivered (action :: actions) = action.data ++ delivered actions := rfl
    rw [hdelivered, ← List.append_assoc, List.append_assoc] at ht
    obtain ⟨first, rest', left', hreading, hb, hleft, htaken, hrequests⟩ := act_takes hwf h ht
    rw [← List.append_assoc] at hleft
    obtain ⟨more, rest'', left'', hreading', hb', htaken', hrequests'⟩ := ih hreading hleft
    refine ⟨first ++ more, rest'', left'', ?_, ?_, ?_, ?_⟩
    · rw [← List.append_assoc]
      exact hreading'
    · rw [hdelivered, ← List.append_assoc, hb, List.append_assoc, hb', stream_append,
        List.append_assoc]
    · rw [List.foldl_cons, htaken', htaken, List.map_append, List.append_assoc]
    · have harrived : (stream WireFrame.encode done ++ left).length + action.data.length =
          (stream WireFrame.encode (done ++ first) ++ left').length := by
        rw [stream_append, List.append_assoc, ← hb, ← List.length_append, List.append_assoc]
      rw [List.foldl_cons, hrequests', hrequests, expected]
      rw [harrived, hreading.whole_eq, h.whole_eq, List.drop_left]

/-- A connection that begins with a clean buffer reads all of its stream. -/
theorem connection_reading (h : Clean c s) : ∃ rest left t,
    Reading s.frames s.sent rest left (s.actions.foldl act c) ∧
      delivered s.actions = stream WireFrame.encode s.sent ++ left ∧
      left ++ t = stream WireFrame.encode rest ∧ Received c s := by
  obtain ⟨t, ht⟩ := s.cut
  have hbuffer : c.rxBuffer = List.replicate c.rxBuffer.length magic0 ++ [] := by
    rw [List.append_nil]
    exact List.eq_replicate_of_mem h
  have hpart : Partial WireFrame.encode s.frames [] := by
    cases hframes : s.frames with
    | nil => rfl
    | cons f frames =>
      show 0 < f.encode.length
      rw [WireFrame.length_encode, headerLen]
      omega
  have hstart : Reading s.frames [] s.frames [] c := ⟨rfl, hpart, _, hbuffer⟩
  obtain ⟨completed, rest, left, hreading, hb, htaken, hrequests⟩ :=
    actions_reading s.wellFormed hstart s.actions ht
  rw [List.nil_append] at hreading hb
  have hsent : s.sent = completed := by
    rw [Session.sent, hb]
    exact hreading.whole_eq
  have hahead : left ++ t = stream WireFrame.encode rest := by
    rw [hb, List.append_assoc, hreading.frames_eq, stream_append] at ht
    exact List.append_cancel_left ht
  rw [← hsent] at hreading hb htaken
  exact ⟨rest, left, t, hreading, hb, hahead, htaken, congrArg Requests.failPending hrequests⟩

/-- The buffer is clean again when at most one byte of a frame was left in it. -/
theorem clean_after (h : Clean c s) (s' : Session) : Clean (connection c s) s' ↔
    (delivered s.actions).length ≤ (stream WireFrame.encode s.sent).length + 1 := by
  obtain ⟨rest, left, t, hreading, hb, hahead, -⟩ := connection_reading h
  obtain ⟨n, hbuffer⟩ := hreading.buffer
  have hclean : Clean (connection c s) s' ↔ ∀ b ∈ left, b = magic0 := by
    show (∀ b ∈ (s.actions.foldl act c).rxBuffer, b = magic0) ↔ _
    rw [hbuffer]
    constructor
    · intro hall b hmem
      exact hall b (List.mem_append_right _ hmem)
    · intro hall b hmem
      exact (List.mem_append.mp hmem).elim List.eq_of_mem_replicate (hall b)
  rw [hclean, hb, List.length_append, Nat.add_le_add_iff_left]
  have hpart := hreading.part
  cases rest with
  | nil =>
    rw [show left = [] from hpart]
    exact ⟨fun _ => Nat.zero_le _, fun _ _ h => by cases h⟩
  | cons f rest =>
    rw [stream_cons, WireFrame.encode, WireFrame.header] at hahead
    cases left with
    | nil => exact ⟨fun _ => Nat.zero_le _, fun _ _ h => by cases h⟩
    | cons b left =>
      cases left with
      | nil =>
        have hfirst : b = magic0 := (List.cons.inj hahead).1
        exact ⟨fun _ => Nat.le_refl 1, fun _ x hx => (List.mem_singleton.mp hx).trans hfirst⟩
      | cons b' left =>
        have hsecond : b' = magic1 := (List.cons.inj (List.cons.inj hahead).2).1
        constructor
        · intro hall
          have hbad := hall b' (by simp)
          rw [hsecond] at hbad
          exact absurd hbad (by decide)
        · intro hlen
          simp only [List.length_cons] at hlen
          omega

/-- **Reassembly.** As long as every connection begins with a clean buffer, every frame
sent completely is taken out of the buffer exactly once and in order, and received. -/
theorem reassembly (sessions : List Session) (h : Along next Clean BleClient.init sessions) :
    Along next Received BleClient.init sessions := by
  refine h.imp fun c s hclean => ?_
  obtain ⟨-, -, -, -, -, -, hreceived⟩ := connection_reading hclean
  exact hreceived

/-! ## Runs -/

/-- An answer to the first request, and a heartbeat. -/
def pong : WireFrame := ⟨.response, 0x0003, 1, [7]⟩
def heartbeat : WireFrame := ⟨.heartbeat, 0, 0, [0, 0]⟩

/-- A ping is answered in two notifications, and one byte of a heartbeat arrives. -/
def pinged : Session where
  frames := [pong, heartbeat]
  actions := [.request, .notify (pong.encode.take 5), .notify (pong.encode.drop 5 ++ [magic0])]
  wellFormed := by decide +kernel
  cut := by decide +kernel

/-- A heartbeat arrives whole. -/
def beats : Session where
  frames := [heartbeat]
  actions := [.notify heartbeat.encode]
  wellFormed := by decide +kernel
  cut := by decide +kernel

theorem reassembly_pinged : Along next Received BleClient.init [pinged, beats] :=
  reassembly [pinged, beats] ⟨by decide +kernel, fun c hc => ⟨by cases hc; decide +kernel,
    fun _ _ => trivial⟩⟩

/-- Four bytes of a heartbeat arrive. -/
def cutOff : Session where
  frames := [heartbeat]
  actions := [.notify (heartbeat.encode.take 4)]
  wellFormed := by decide +kernel
  cut := by decide +kernel

/-- The heartbeat of the next connection is not taken out. -/
theorem not_received : ¬ Along next Received BleClient.init [cutOff, beats] := by
  intro h
  have htaken := ((h.2 _ rfl).1).taken
  revert htaken
  decide +kernel

end Jukeboy.CompanionApi.Reassembly
