import Jukeboy.Base.ByteLayout
import Jukeboy.CompanionApi.Tlv

/-! # The body of a Last.fm response

A request collects the pieces of its response in one block of memory that grows with
them. Sizes are 32 bits wide and wrap around; a write outside the block, or a request
for a block of no bytes, is a fault. -/
namespace Jukeboy.Lastfm.HttpResponse
open Jukeboy.Base Jukeboy.Base.ByteFile Jukeboy.Base.ByteLayout
open Jukeboy.CompanionApi.Tlv (Bytes cString)

/-- What the allocator gives for a size: the bytes the new block starts with, or nothing. -/
structure Heap where
  block : UInt32 → Option Bytes
  size : ∀ n b, block n = some b → b.length = n.toNat
  /-- No block takes half of the address space. -/
  small : ∀ n b, block n = some b → n.toNat < 2 ^ 31

/-- `realloc`: what the old block holds is copied to the new one. -/
def Heap.realloc (heap : Heap) (old : Option Bytes) (size : UInt32) : Option Bytes :=
  (heap.block size).map fun b => overwrite b 0 ((old.getD []).take size.toNat)

/-- `lastfm_http_response_buffer_t`. -/
structure Buffer where
  data : Option Bytes
  length : UInt32
  capacity : UInt32
  err : EspErr
deriving DecidableEq, Repr

/-- `lastfm_http_response_buffer_t response_buffer = {0};` -/
def Buffer.init : Buffer := ⟨none, 0, 0, .ok⟩

/-- Bytes stored at an index of the block, when they lie inside it. -/
def write (data : Option Bytes) (start : UInt32) (bytes : Bytes) : Option Bytes :=
  data.bind fun block => writeInside block start.toNat bytes

/-- The loop that doubles `new_capacity`. -/
def grow (requiredCapacity newCapacity : UInt32) : UInt32 :=
  if newCapacity < requiredCapacity then
    let doubledCapacity := newCapacity * 2
    if doubledCapacity ≤ newCapacity then requiredCapacity
    else grow requiredCapacity doubledCapacity
  else newCapacity
termination_by requiredCapacity.toNat - newCapacity.toNat
decreasing_by
  rename_i hlt hgt
  have hlt := UInt32.lt_iff_toNat_lt.mp hlt
  have hgt := UInt32.lt_iff_toNat_lt.mp (UInt32.not_le.mp hgt)
  exact Nat.sub_lt_sub_left hlt hgt

/-- `lastfm_service_http_response_buffer_reserve`. -/
def httpResponseBufferReserve (heap : Heap) (buffer : Buffer) (requiredCapacity : UInt32) :
    Option (Buffer × EspErr) :=
  if requiredCapacity ≤ buffer.capacity then some (buffer, .ok)
  else
    let newCapacity := grow requiredCapacity (if buffer.capacity ≠ 0 then buffer.capacity else 256)
    if newCapacity + 1 = 0 then none
    else
      match heap.realloc buffer.data (newCapacity + 1) with
      | none => some (buffer, .noMem)
      | some newData => do
        let data ← write (some newData) buffer.length [0]
        pure ({ buffer with data := some data, capacity := newCapacity }, .ok)

/-- An event of the HTTP client, with the allocator as it is then. `data` is empty when
the event has none; `data_len` is an `int`. -/
structure Event where
  onData : Bool
  data : Bytes
  heap : Heap
  isInt : data.length < 2 ^ 31

/-- `lastfm_service_http_event_handler`; what it returns is the `err` it leaves. -/
def httpEventHandler (buffer : Buffer) (event : Event) : Option Buffer :=
  if buffer.err ≠ .ok then some buffer
  else if !event.onData || event.data.isEmpty then some buffer
  else do
    let dataLen := UInt32.ofNat event.data.length
    let (buffer, err) ← httpResponseBufferReserve event.heap buffer (buffer.length + dataLen)
    if err ≠ .ok then pure { buffer with err }
    else
      let data ← write buffer.data buffer.length event.data
      let data ← write (some data) (buffer.length + dataLen) [0]
      pure { buffer with data := some data, length := buffer.length + dataLen, err := .ok }

/-- The events of a response, one after the other. -/
def handleAll : Buffer → List Event → Option Buffer
  | buffer, [] => some buffer
  | buffer, event :: events => (httpEventHandler buffer event).bind fun b => handleAll b events

/-- The response as the server sent it. -/
def bodyOf (events : List Event) : Bytes :=
  events.flatMap fun event => if event.onData then event.data else []

/-! ## The capacity -/

theorem grow_spec (requiredCapacity newCapacity : UInt32)
    (hrequired : requiredCapacity.toNat + 1 < 2 ^ 32) (hnew : newCapacity.toNat + 1 < 2 ^ 32) :
    requiredCapacity ≤ grow requiredCapacity newCapacity ∧
      (grow requiredCapacity newCapacity).toNat + 1 < 2 ^ 32 ∧
      (grow requiredCapacity newCapacity).toNat ≤
        max newCapacity.toNat (2 * requiredCapacity.toNat) := by
  fun_induction grow requiredCapacity newCapacity with
  | case1 newCapacity hlt doubledCapacity hwraps =>
    exact ⟨UInt32.le_refl _, hrequired, by omega⟩
  | case2 newCapacity hlt doubledCapacity hdoubled ih =>
    have hlt := UInt32.lt_iff_toNat_lt.mp hlt
    have hdoubled := UInt32.lt_iff_toNat_lt.mp (UInt32.not_le.mp hdoubled)
    have heq : doubledCapacity.toNat = newCapacity.toNat * 2 % 2 ^ 32 := UInt32.toNat_mul ..
    obtain ⟨hle, hlast, hmax⟩ := ih (by omega)
    exact ⟨hle, hlast, by omega⟩
  | case3 newCapacity hge =>
    exact ⟨UInt32.not_lt.mp hge, hnew, by omega⟩

/-! ## The block -/

/-- The buffer holds this body, with a zero behind it. -/
structure Holds (buffer : Buffer) (body : Bytes) : Prop where
  length : body.length = buffer.length.toNat
  room : buffer.length ≤ buffer.capacity
  empty : buffer.data = none → buffer.capacity = 0
  small : buffer.capacity.toNat < 2 ^ 31
  block : ∀ block, buffer.data = some block → block.length = buffer.capacity.toNat + 1 ∧
    ∃ rest, block = body ++ 0 :: rest

theorem holds_init : Holds Buffer.init [] := by
  refine ⟨rfl, by decide, fun _ => rfl, by decide, ?_⟩
  intro block h
  cases h

/-- Bytes stored behind what is there. -/
theorem write_append (body rest bytes : Bytes) {start : UInt32} (hstart : body.length = start.toNat)
    (hfits : bytes.length ≤ rest.length) :
    write (some (body ++ rest)) start bytes = some (body ++ (bytes ++ rest.drop bytes.length)) := by
  rw [write, Option.bind_some, ← hstart]
  exact writeInside_append body rest bytes hfits

/-- `realloc` of a block that holds the body, or of none. -/
theorem realloc_eq {heap : Heap} {buffer : Buffer} {body newData : Bytes} {size : UInt32}
    (h : Holds buffer body) (hsize : buffer.length.toNat < size.toNat)
    (hnew : heap.realloc buffer.data size = some newData) :
    newData.length = size.toNat ∧ size.toNat < 2 ^ 31 ∧ ∃ rest, newData = body ++ rest := by
  obtain ⟨b, hb, rfl⟩ := Option.map_eq_some_iff.mp hnew
  have hlen := heap.size size b hb
  have hcopied : ((buffer.data.getD []).take size.toNat).length ≤ b.length := by
    rw [List.length_take, hlen]
    exact Nat.min_le_left ..
  refine ⟨by rw [length_overwrite (by omega), hlen], heap.small size b hb, ?_⟩
  rw [overwrite_of_le (Nat.zero_le _), List.take_zero, List.nil_append]
  cases hdata : buffer.data with
  | none =>
    have hcapacity := h.empty hdata
    have hzero : buffer.length.toNat = 0 := by
      have := UInt32.le_iff_toNat_le.mp h.room
      rw [hcapacity] at this
      exact Nat.le_zero.mp this
    have hbody : body = [] := List.eq_nil_of_length_eq_zero (h.length.trans hzero)
    exact ⟨_, by rw [hbody, List.nil_append]⟩
  | some block =>
    obtain ⟨-, rest, rfl⟩ := h.block block hdata
    have hkeep : body.length ≤ size.toNat := by
      rw [h.length]
      omega
    rw [Option.getD_some, List.take_append, List.take_of_length_le hkeep, List.append_assoc]
    exact ⟨_, rfl⟩

/-! ## Taking a piece -/

/-- The allocator had no block for a body of this length: the one asked for has room for
it and is not more than twice as long. -/
def Refused (heap : Heap) (length : Nat) : Prop :=
  ∃ size : UInt32, length < size.toNat ∧ size.toNat ≤ max 257 (2 * length + 1) ∧
    heap.block size = none

/-- `lastfm_service_http_response_buffer_reserve`: there is room, or nothing has changed. -/
theorem httpResponseBufferReserve_spec (heap : Heap) {buffer : Buffer} {body : Bytes}
    (requiredCapacity : UInt32) (h : Holds buffer body)
    (hrequired : requiredCapacity.toNat + 1 < 2 ^ 32) :
    ∃ buffer' err,
      httpResponseBufferReserve heap buffer requiredCapacity = some (buffer', err) ∧
      Holds buffer' body ∧ buffer'.length = buffer.length ∧ buffer'.err = buffer.err ∧
      (err = .ok ∧ requiredCapacity ≤ buffer'.capacity ∨
        err = .noMem ∧ Refused heap requiredCapacity.toNat) := by
  unfold httpResponseBufferReserve
  split
  · next hroom => exact ⟨buffer, .ok, rfl, h, rfl, rfl, .inl ⟨rfl, hroom⟩⟩
  · next hroom =>
    have hsmall := h.small
    have hmore := UInt32.lt_iff_toNat_lt.mp (UInt32.not_le.mp hroom)
    have hlength := UInt32.le_iff_toNat_le.mp h.room
    have hstart : (if buffer.capacity ≠ 0 then buffer.capacity else 256).toNat ≤
        max 256 buffer.capacity.toNat := by
      split
      · exact Nat.le_max_right ..
      · exact Nat.le_max_left ..
    generalize hnew : (if buffer.capacity ≠ 0 then buffer.capacity else 256) = start at hstart ⊢
    obtain ⟨hle, hlast, hmax⟩ := grow_spec requiredCapacity start hrequired (by omega)
    generalize grow requiredCapacity start = newCapacity at hle hlast hmax ⊢
    have hle := UInt32.le_iff_toNat_le.mp hle
    have hsize : (newCapacity + 1).toNat = newCapacity.toNat + 1 := by
      rw [UInt32.toNat_add, show (1 : UInt32).toNat = 1 from rfl, Nat.mod_eq_of_lt (by omega)]
    have hnonzero : newCapacity + 1 ≠ 0 := by
      intro hzero
      rw [hzero] at hsize
      cases hsize
    simp only [if_neg hnonzero]
    cases hrealloc : heap.realloc buffer.data (newCapacity + 1) with
    | none =>
      refine ⟨buffer, .noMem, rfl, h, rfl, rfl, .inr ⟨rfl, newCapacity + 1, by omega, by omega, ?_⟩⟩
      exact Option.map_eq_none_iff.mp hrealloc
    | some newData =>
      obtain ⟨hlen, hblock, rest, rfl⟩ := realloc_eq h (by omega) hrealloc
      have hbody := h.length
      rw [List.length_append] at hlen
      have hfits : [(0 : UInt8)].length ≤ rest.length := by
        rw [List.length_singleton]
        omega
      have hzero := write_append body rest [0] hbody hfits
      simp only [hzero]
      refine ⟨⟨some (body ++ 0 :: rest.drop 1), buffer.length, newCapacity, buffer.err⟩, .ok, rfl,
        ?_, rfl, rfl, .inl ⟨rfl, ?_⟩⟩
      · have hroom : buffer.length ≤ newCapacity := UInt32.le_iff_toNat_le.mpr (by omega)
        have hcapacity : newCapacity.toNat < 2 ^ 31 := by omega
        refine ⟨hbody, hroom, ?_, hcapacity, ?_⟩
        · intro hnone
          cases hnone
        · rintro block ⟨⟩
          refine ⟨?_, rest.drop 1, rfl⟩
          show _ = newCapacity.toNat + 1
          simp only [List.length_append, List.length_cons, List.length_drop]
          omega
      · exact UInt32.le_iff_toNat_le.mpr hle

/-- What one event leaves: the piece is added, or the buffer stays as it was with an error. -/
theorem httpEventHandler_spec {buffer : Buffer} {body : Bytes} (event : Event)
    (h : Holds buffer body) (herr : buffer.err = .ok) :
    ∃ buffer', httpEventHandler buffer event = some buffer' ∧
      (buffer'.err = .ok ∧ Holds buffer' (body ++ bodyOf [event]) ∨
        buffer'.err = .noMem ∧ Holds buffer' body ∧
          Refused event.heap (body ++ bodyOf [event]).length) := by
  have hpiece : bodyOf [event] = if event.onData then event.data else [] := List.append_nil _
  rw [httpEventHandler, if_neg (fun hne => hne herr), hpiece]
  split
  · next hignored =>
    refine ⟨buffer, rfl, .inl ⟨herr, ?_⟩⟩
    have hnothing : (if event.onData then event.data else []) = [] := by
      rcases Bool.or_eq_true_iff.mp hignored with hother | hnone
      · rw [if_neg (by simpa using hother)]
      · rw [List.isEmpty_iff.mp hnone, ite_self]
    rw [hnothing, List.append_nil]
    exact h
  · next htaken =>
    have hon : event.onData = true := by
      by_contra hoff
      exact htaken (by rw [Bool.eq_false_iff.mpr hoff]; rfl)
    have hint := event.isInt
    have hroom := UInt32.le_iff_toNat_le.mp h.room
    have hsmall := h.small
    have hbody := h.length
    have hlen : (UInt32.ofNat event.data.length).toNat = event.data.length :=
      UInt32.toNat_ofNat_of_lt' (by show _ < 2 ^ 32; omega)
    have hsum : (buffer.length + UInt32.ofNat event.data.length).toNat =
        (body ++ event.data).length := by
      rw [UInt32.toNat_add, hlen, List.length_append, hbody, Nat.mod_eq_of_lt (by omega)]
    have hadded := hsum.trans List.length_append
    rw [if_pos hon]
    obtain ⟨reserved, err, hreserve, hkept, hlength, hsame, hres⟩ :=
      httpResponseBufferReserve_spec event.heap
        (buffer.length + UInt32.ofNat event.data.length) h (by omega)
    simp only [hreserve, Option.bind_eq_bind, Option.bind_some]
    rcases hres with ⟨rfl, henough⟩ | ⟨rfl, hrefused⟩
    · have henough := UInt32.le_iff_toNat_le.mp henough
      obtain ⟨block, hdata⟩ : ∃ block, reserved.data = some block := by
        cases hdata : reserved.data with
        | some block => exact ⟨block, rfl⟩
        | none =>
          -- A buffer without a block has no capacity, and the piece is not empty.
          have hcapacity := hkept.empty hdata
          have hsome : event.data.length ≠ 0 := by
            intro hnone
            exact htaken (by rw [List.eq_nil_of_length_eq_zero hnone]; simp)
          rw [hcapacity] at henough
          have : (0 : UInt32).toNat = 0 := rfl
          omega
      obtain ⟨hblocklen, rest, rfl⟩ := hkept.block block hdata
      simp only [List.length_append, List.length_cons] at hblocklen
      have hfits : event.data.length ≤ (0 :: rest).length := by
        rw [List.length_cons]
        omega
      have hfirst := write_append body (0 :: rest) event.data hkept.length hfits
      have hend : (body ++ event.data).length =
          (reserved.length + UInt32.ofNat event.data.length).toNat := by rw [hlength, hsum]
      have hroomNul : [(0 : UInt8)].length ≤ ((0 :: rest).drop event.data.length).length := by
        simp only [List.length_drop, List.length_cons, List.length_nil]
        omega
      have hnul := write_append (body ++ event.data) ((0 :: rest).drop event.data.length) [0] hend
        hroomNul
      rw [List.append_assoc] at hnul
      simp only [hdata, hfirst, Option.bind_some, hnul, ne_eq, not_true_eq_false, if_false]
      refine ⟨_, rfl, .inl ⟨rfl, ?_⟩⟩
      refine ⟨by rw [hlength, hsum], UInt32.le_iff_toNat_le.mpr ?_, ?_, hkept.small, ?_⟩
      · rw [hlength]
        exact henough
      · intro hnone
        cases hnone
      · rintro block ⟨⟩
        refine ⟨?_, (rest.drop event.data.length), by simp⟩
        simp only [List.length_append, List.length_drop, List.length_cons, List.length_nil]
        omega
    · refine ⟨{ reserved with err := .noMem }, rfl, .inr ⟨rfl, ?_, ?_⟩⟩
      · exact ⟨hkept.length, hkept.room, hkept.empty, hkept.small, hkept.block⟩
      · rw [← hsum]
        exact hrefused

/-! ## The whole response -/

theorem bodyOf_cons (event : Event) (events : List Event) :
    bodyOf (event :: events) = bodyOf [event] ++ bodyOf events := by
  simp [bodyOf]

/-- After an error the events change nothing. -/
theorem handleAll_of_err {buffer : Buffer} (herr : buffer.err ≠ .ok) (events : List Event) :
    handleAll buffer events = some buffer := by
  induction events with
  | nil => rfl
  | cons event events ih =>
    have hfirst : httpEventHandler buffer event = some buffer := if_pos herr
    rw [handleAll, hfirst, Option.bind_some, ih]

theorem handleAll_spec {buffer : Buffer} {body : Bytes} (events : List Event)
    (h : Holds buffer body) (herr : buffer.err = .ok) :
    ∃ buffer', handleAll buffer events = some buffer' ∧
      (buffer'.err = .ok ∧ Holds buffer' (body ++ bodyOf events) ∨
        buffer'.err = .noMem ∧ ∃ pre event post, events = pre ++ event :: post ∧
          Holds buffer' (body ++ bodyOf pre) ∧
          Refused event.heap (body ++ bodyOf (pre ++ [event])).length) := by
  induction events generalizing buffer body with
  | nil =>
    refine ⟨buffer, rfl, .inl ⟨herr, ?_⟩⟩
    rw [bodyOf, List.flatMap_nil, List.append_nil]
    exact h
  | cons event events ih =>
    obtain ⟨next, hnext, ⟨hok, hheld⟩ | ⟨hfull, hheld, hrefused⟩⟩ :=
      httpEventHandler_spec event h herr
    · obtain ⟨last, hlast, hres⟩ := ih hheld hok
      refine ⟨last, by rw [handleAll, hnext, Option.bind_some, hlast], ?_⟩
      rcases hres with ⟨hok, hheld⟩ | ⟨hfull, pre, bad, post, rfl, hheld, hrefused⟩
      · refine .inl ⟨hok, ?_⟩
        rw [bodyOf_cons, ← List.append_assoc]
        exact hheld
      · refine .inr ⟨hfull, event :: pre, bad, post, rfl, ?_, ?_⟩
        · rw [bodyOf_cons, ← List.append_assoc]
          exact hheld
        · rw [List.cons_append, bodyOf_cons, ← List.append_assoc]
          exact hrefused
    · have hne : next.err ≠ .ok := by
        rw [hfull]
        decide
      refine ⟨next, by rw [handleAll, hnext, Option.bind_some, handleAll_of_err hne], ?_⟩
      refine .inr ⟨hfull, [], event, events, rfl, ?_, hrefused⟩
      rw [bodyOf, List.flatMap_nil, List.append_nil]
      exact hheld

theorem cString_append_zero (body rest : Bytes) : cString (body ++ 0 :: rest) = cString body := by
  induction body with
  | nil => rfl
  | cons c body ih =>
    rw [cString, cString, List.cons_append, List.takeWhile_cons, List.takeWhile_cons]
    rw [cString, cString] at ih
    rw [ih]

/-- The string in the block is that of the body. -/
theorem Holds.cString_eq {buffer : Buffer} {body block : Bytes} (h : Holds buffer body)
    (hdata : buffer.data = some block) : cString block = cString body := by
  obtain ⟨-, rest, rfl⟩ := h.block block hdata
  exact cString_append_zero body rest

/-- **A response is collected whole or not used**: whatever the allocator does, no event
writes outside the block, and afterwards the string in it is that of the whole response,
unless the error says that the allocator had no block for a beginning of it. -/
theorem response_collected (events : List Event) :
    ∃ buffer, handleAll Buffer.init events = some buffer ∧
      (buffer.err = .ok ∧ buffer.length.toNat = (bodyOf events).length ∧
          (buffer.data.map cString).getD [] = cString (bodyOf events) ∨
        buffer.err = .noMem ∧ ∃ pre event post, events = pre ++ event :: post ∧
          Refused event.heap (bodyOf (pre ++ [event])).length) := by
  obtain ⟨buffer, hrun, hres⟩ := handleAll_spec events holds_init rfl
  refine ⟨buffer, hrun, hres.imp ?_ ?_⟩
  · rintro ⟨hok, hheld⟩
    refine ⟨hok, hheld.length.symm, ?_⟩
    cases hdata : buffer.data with
    | none =>
      have hroom := UInt32.le_iff_toNat_le.mp hheld.room
      rw [hheld.empty hdata] at hroom
      have hnone : bodyOf events = [] :=
        List.eq_nil_of_length_eq_zero (hheld.length.trans (Nat.le_zero.mp hroom))
      rw [hnone]
      rfl
    | some block => exact hheld.cString_eq hdata
  · rintro ⟨hfull, pre, event, post, hevents, -, hrefused⟩
    exact ⟨hfull, pre, event, post, hevents, hrefused⟩

end Jukeboy.Lastfm.HttpResponse
