import Jukeboy.Base.EspErr
import Jukeboy.Base.Runs
import Jukeboy.CompanionApi.BleClient

/-! # From the firmware's frames to the client's

`companion_api_send_frame` cuts a frame into notifications of the size that the MTU
allows when it begins, and gives up at the first one that fails. The client reads what
was delivered. -/
namespace Jukeboy.CompanionApi.StreamIntegrity

open Jukeboy.Base Jukeboy.Base.Framing Jukeboy.Base.Runs
open Jukeboy.CompanionApi.Tlv Jukeboy.CompanionApi.Protocol Jukeboy.CompanionApi.BleClient

/-! ## Sending -/

/-- `bluetooth_service_spp_get_max_payload`. -/
def maxPayload (mtu : Nat) : Nat := if mtu > 3 then mtu - 3 else 0

/-- `bt_svc_spp_send_value` and `bt_svc_spp_send_data` of an open link: what is notified
of the value, when the stack answers with `result`. -/
def sppSendData (mtu : Nat) (result : EspErr) (value : Bytes) : Bytes × EspErr :=
  if value = [] then ([], .invalidArg)
  else if maxPayload mtu = 0 then ([], .invalidSize)
  else (if result = .ok then value.take (maxPayload mtu) else [], result)

/-- A frame to send, whether the link is open for it, the MTU when the sending begins,
and for each of its notifications the MTU and what the stack answers. -/
structure Send where
  frame : WireFrame
  ready : Bool
  mtu : Nat
  notification : Nat → Nat × EspErr

/-- The loop of `companion_api_send_frame` from notification `i` on; every turn sends a
byte at least. The notifications made and the result. -/
def sendChunks (chunkLen : Nat) (notification : Nat → Nat × EspErr) :
    Nat → Nat → Bytes → List Bytes × EspErr
  | 0, _, _ => ([], .ok)
  | fuel + 1, i, rest =>
    if rest.length = 0 then ([], .ok)
    else
      let (data, err) := sppSendData (notification i).1 (notification i).2 (rest.take chunkLen)
      if err ≠ .ok then ([], err)
      else
        let (more, err) := sendChunks chunkLen notification fuel (i + 1) (rest.drop chunkLen)
        (data :: more, err)

/-- `companion_api_send_frame`. -/
def sendFrame (x : Send) : List Bytes × EspErr :=
  if ¬ x.frame.Short then ([], .invalidSize)
  else if ¬ x.ready then ([], .invalidState)
  else if maxPayload x.mtu = 0 then ([], .invalidState)
  else sendChunks (maxPayload x.mtu) x.notification x.frame.encode.length 0 x.frame.encode

/-- The client after the notifications of a frame. -/
def received (c : Client) (x : Send) : Client :=
  (sendFrame x).1.foldl Client.processNotification c

def next (c : Client) (x : Send) : Option Client := some (received c x)

/-! ## What the stream is for -/

/-- A frame that was sent without an error is taken out of the client's buffer, as the
last one of its notifications. -/
def Recovered (c : Client) (x : Send) : Prop :=
  (sendFrame x).2 = .ok → ∃ before,
    (received c x).taken = c.taken ++ (before ++ [x.frame.encode])

/-- The frame is short enough, the link is open, and every notification succeeds. -/
def Succeeds (x : Send) : Prop :=
  x.frame.Short ∧ x.ready = true ∧ 0 < maxPayload x.mtu ∧
    ∀ i, i * maxPayload x.mtu < x.frame.encode.length →
      0 < maxPayload (x.notification i).1 ∧ (x.notification i).2 = .ok

/-- No notification has more bytes than the MTU allows by then. -/
def Untruncated (x : Send) : Prop :=
  ∀ i, i * maxPayload x.mtu < x.frame.encode.length →
    min (maxPayload x.mtu) (x.frame.encode.length - i * maxPayload x.mtu) ≤
      maxPayload (x.notification i).1

/-- A sending that succeeds meets a buffer in which nothing is left that the client does
not skip, and an MTU that stays large enough. -/
def Condition (c : Client) (x : Send) : Prop :=
  Succeeds x → (∀ b ∈ c.rxBuffer, b = magic0) ∧ Untruncated x

/-! ## The notifications of a frame -/

variable {c : Client} {x : Send} {chunkLen : Nat} {notification : Nat → Nat × EspErr}

theorem sppSendData_ok {mtu : Nat} {result : EspErr} {value : Bytes}
    (h : (sppSendData mtu result value).2 = .ok) :
    value ≠ [] ∧ 0 < maxPayload mtu ∧ result = .ok ∧
      (sppSendData mtu result value).1 = value.take (maxPayload mtu) := by
  unfold sppSendData at h ⊢
  by_cases hnil : value = []
  · rw [if_pos hnil] at h
    cases h
  rw [if_neg hnil] at h ⊢
  by_cases hzero : maxPayload mtu = 0
  · rw [if_pos hzero] at h
    cases h
  rw [if_neg hzero] at h ⊢
  have hok : result = .ok := h
  exact ⟨hnil, Nat.pos_of_ne_zero hzero, hok, if_pos hok⟩

/-- Every notification of a sending that succeeds succeeds. -/
theorem sendChunks_ok {fuel i : Nat} {rest : Bytes} (hpos : 0 < chunkLen)
    (hfuel : rest.length ≤ fuel) (h : (sendChunks chunkLen notification fuel i rest).2 = .ok)
    {j : Nat} (hj : j * chunkLen < rest.length) :
    0 < maxPayload (notification (i + j)).1 ∧ (notification (i + j)).2 = .ok := by
  induction fuel generalizing i rest j with
  | zero => omega
  | succ fuel ih =>
    rw [sendChunks, if_neg (by omega)] at h
    dsimp only at h
    split at h
    · next herr => exact absurd h herr
    · next herr =>
      obtain ⟨-, hmtu, hresult, -⟩ := sppSendData_ok (not_not.mp herr)
      cases j with
      | zero => exact ⟨hmtu, hresult⟩
      | succ j =>
        have hlen : (rest.drop chunkLen).length = rest.length - chunkLen := List.length_drop
        rw [Nat.succ_mul] at hj
        have hnext := ih (by omega) h (j := j) (by omega)
        rwa [Nat.add_right_comm, Nat.add_assoc] at hnext

theorem succeeds_of_ok (h : (sendFrame x).2 = .ok) : Succeeds x := by
  unfold sendFrame at h
  by_cases hshort : x.frame.Short
  · rw [if_neg (not_not.mpr hshort)] at h
    by_cases hready : x.ready = true
    · rw [if_neg (not_not.mpr hready)] at h
      by_cases hzero : maxPayload x.mtu = 0
      · rw [if_pos hzero] at h
        cases h
      · rw [if_neg hzero] at h
        refine ⟨hshort, hready, Nat.pos_of_ne_zero hzero, fun i hi => ?_⟩
        have hboth := sendChunks_ok (Nat.pos_of_ne_zero hzero) (Nat.le_refl _) h hi
        rwa [Nat.zero_add] at hboth
    · rw [if_pos hready] at h
      cases h
  · rw [if_pos hshort] at h
    cases h

/-- Notifications that succeed and are not truncated deliver the bytes. -/
theorem sendChunks_flatten {fuel i : Nat} {rest : Bytes} (hpos : 0 < chunkLen)
    (hfuel : rest.length ≤ fuel) (h : (sendChunks chunkLen notification fuel i rest).2 = .ok)
    (hfits : ∀ j, j * chunkLen < rest.length →
      min chunkLen (rest.length - j * chunkLen) ≤ maxPayload (notification (i + j)).1) :
    (sendChunks chunkLen notification fuel i rest).1.flatten = rest ∧
      ∀ data ∈ (sendChunks chunkLen notification fuel i rest).1, data ≠ [] := by
  induction fuel generalizing i rest with
  | zero =>
    rw [List.length_eq_zero_iff.mp (Nat.le_zero.mp hfuel)]
    exact ⟨rfl, fun _ h => by cases h⟩
  | succ fuel ih =>
    rw [sendChunks] at h ⊢
    by_cases hnil : rest.length = 0
    · rw [if_pos hnil, List.length_eq_zero_iff.mp hnil]
      exact ⟨rfl, fun _ h => by cases h⟩
    rw [if_neg hnil] at h ⊢
    dsimp only at h ⊢
    split at h
    · next herr => exact absurd h herr
    · next herr =>
      obtain ⟨hne, -, -, hdata⟩ := sppSendData_ok (not_not.mp herr)
      have hlen : (rest.drop chunkLen).length = rest.length - chunkLen := List.length_drop
      have hfirst := hfits 0 (by omega)
      rw [Nat.zero_mul, Nat.sub_zero, Nat.add_zero] at hfirst
      have hwhole : (rest.take chunkLen).take (maxPayload (notification i).1) =
          rest.take chunkLen := by
        refine List.take_of_length_le ?_
        rw [List.length_take]
        exact hfirst
      obtain ⟨hflatten, hall⟩ := ih (by omega) h fun j hj => by
        have hnext := hfits (j + 1) (by rw [Nat.succ_mul]; omega)
        rw [Nat.succ_mul, ← Nat.add_assoc, Nat.add_right_comm] at hnext
        rw [hlen]
        omega
      rw [if_neg herr, hdata, hwhole]
      refine ⟨?_, ?_⟩
      · rw [List.flatten_cons, hflatten, List.take_append_drop]
      · intro data hmem
        obtain rfl | hmem := List.mem_cons.mp hmem
        · exact hne
        · exact hall data hmem

/-! ## The client's reading -/

/-- The notifications of one frame, from where a part of it is buffered. -/
theorem taken_frame {f : WireFrame} (hshort : f.Short) {n : Nat} {left : Bytes}
    (hbuffer : c.rxBuffer = List.replicate n magic0 ++ left) (chunks : List Bytes)
    (hne : ∀ data ∈ chunks, data ≠ []) (hpart : left.length < f.encode.length)
    (h : left ++ chunks.flatten = f.encode) :
    (chunks.foldl Client.processNotification c).taken = c.taken ++ [f.encode] := by
  induction chunks generalizing c n left with
  | nil =>
    rw [List.flatten_nil, List.append_nil] at h
    rw [h] at hpart
    omega
  | cons data chunks ih =>
    have hstream : left ++ data ++ chunks.flatten = stream WireFrame.encode [f] := by
      rw [List.append_assoc, stream_cons, stream_nil, List.append_nil]
      exact h
    have hlen : n + (left ++ data).length ≤ (c.rxBuffer ++ data).length := by
      rw [hbuffer]
      simp
    obtain ⟨n', done, rest, left', hframes, hb, hleft, hpart', hread⟩ :=
      read_next WireFrame.reads (List.forall_mem_singleton.mpr hshort) hstream n hlen
    rw [← List.append_assoc, ← hbuffer] at hread
    rw [List.foldl_cons]
    cases done with
    | nil =>
      -- the frame is not whole yet
      rw [List.nil_append] at hframes
      subst hframes
      have hprocess : c.processNotification data =
          c.receiveAll [] (List.replicate n' magic0 ++ left') :=
        processFrom_eq (c := { c with rxBuffer := c.rxBuffer ++ data })
          (List.forall_mem_nil _) hread
      rw [hprocess]
      rw [stream_cons, stream_nil, List.append_nil] at hleft
      have hrest := ih (c := c.receiveAll [] (List.replicate n' magic0 ++ left')) rfl
        (fun d hd => hne d (List.mem_cons_of_mem data hd)) hpart' hleft
      rw [hrest, Client.receiveAll, List.map_nil, List.append_nil]
    | cons g done =>
      -- this notification completes it
      obtain ⟨rfl, htail⟩ := List.cons.inj hframes
      obtain ⟨rfl, rfl⟩ := List.append_eq_nil_iff.mp htail.symm
      have hnil : chunks = [] := by
        rw [stream_nil] at hleft
        have hflat := (List.append_eq_nil_iff.mp hleft).2
        cases chunks with
        | nil => rfl
        | cons d chunks =>
          rw [List.flatten_cons] at hflat
          exact absurd (List.append_eq_nil_iff.mp hflat).1
            (hne d (List.mem_cons_of_mem data List.mem_cons_self))
      rw [hnil]
      exact processFrom_taken (c := { c with rxBuffer := c.rxBuffer ++ data }) hread

theorem recovered_of_condition (hC : Condition c x) : Recovered c x := by
  intro hok
  have hsucceeds := succeeds_of_ok hok
  obtain ⟨hclean, hfits⟩ := hC hsucceeds
  obtain ⟨hshort, hready, hpos, -⟩ := hsucceeds
  have hsend : sendFrame x = sendChunks (maxPayload x.mtu) x.notification
      x.frame.encode.length 0 x.frame.encode := by
    rw [sendFrame, if_neg (not_not.mpr hshort), if_neg (not_not.mpr hready), if_neg hpos.ne']
  rw [hsend] at hok
  obtain ⟨hflatten, hne⟩ := sendChunks_flatten hpos (Nat.le_refl _) hok fun j hj => by
    rw [Nat.zero_add]
    exact hfits j hj
  have hbuffer : c.rxBuffer = List.replicate c.rxBuffer.length magic0 ++ [] := by
    rw [List.append_nil]
    exact List.eq_replicate_of_mem hclean
  refine ⟨[], ?_⟩
  rw [received, hsend, List.nil_append]
  refine taken_frame hshort hbuffer _ hne ?_ hflatten
  rw [WireFrame.length_encode, headerLen, List.length_nil]
  omega

/-- **Stream integrity.** As long as every sending that succeeds meets the condition,
every frame that was sent without an error is taken out of the client's buffer. -/
theorem stream_integrity (sends : List Send) (h : Along next Condition BleClient.init sends) :
    Along next Recovered BleClient.init sends :=
  h.imp fun _ _ hC => recovered_of_condition hC

/-! ## Runs -/

/-- An event with 30 bytes of payload, and a heartbeat. -/
def event : WireFrame := ⟨.event, 0x0100, 0, List.replicate 30 1⟩
def heartbeat : WireFrame := ⟨.heartbeat, 0x0100, 0, [0, 0]⟩

/-- A frame sent over a link with this MTU. -/
def Send.plain (frame : WireFrame) (mtu : Nat) : Send := ⟨frame, true, mtu, fun _ => (mtu, .ok)⟩

theorem stream_integrity_plain :
    Along next Recovered BleClient.init [.plain event 23, .plain heartbeat 23] := by
  refine stream_integrity _ ⟨fun _ => ⟨fun _ h => (by cases h), fun i _ => Nat.min_le_left _ _⟩,
    fun c hc =>
    ⟨fun _ => ⟨?_, fun i _ => Nat.min_le_left _ _⟩, fun _ _ => trivial⟩⟩
  cases hc
  decide +kernel

/-- The second notification of the event fails, then the heartbeat is sent. -/
def abandoned : List Send :=
  [⟨event, true, 23, fun i => (23, if i = 0 then .ok else .fail)⟩, .plain heartbeat 23]

/-- The MTU shrinks while the event is sent. -/
def truncated : List Send := [⟨event, true, 103, fun _ => (23, .ok)⟩]

theorem not_recovered : ¬ Along next Recovered BleClient.init abandoned ∧
    ¬ Along next Recovered BleClient.init truncated := by
  constructor
  · intro h
    obtain ⟨before, htaken⟩ := (h.2 _ rfl).1 (by decide +kernel)
    have hlast := congrArg List.getLast? htaken
    rw [List.getLast?_append, List.getLast?_concat] at hlast
    revert hlast
    decide +kernel
  · intro h
    obtain ⟨before, htaken⟩ := h.1 (by decide +kernel)
    have hlast := congrArg List.getLast? htaken
    rw [List.getLast?_append, List.getLast?_concat] at hlast
    revert hlast
    decide +kernel

end Jukeboy.CompanionApi.StreamIntegrity
