import Jukeboy.Base.ByteLayout
import Jukeboy.Base.SelfDelimiting
import Jukeboy.CompanionApi.TlvRoundTrip

/-! # TLVs in their buffers

The writer as it fills the transmit frame, the search as it walks over a payload
byte by byte, and both sides of the client. What the writer leaves in its buffer the
client parses back, and the search looks at the payload only and finds what its
longest well-formed beginning holds. -/
namespace Jukeboy.CompanionApi.TlvBuffer

open Jukeboy.Base.LittleEndian Jukeboy.Base.ByteFile Jukeboy.Base.ByteLayout
open Jukeboy.Base.SelfDelimiting
open Jukeboy.CompanionApi.Tlv hiding findTlv findTlvFrom appendBool appendU8 appendU16 appendU32
  appendString append
open Jukeboy.CompanionApi.BleClient

/-! ## The format -/

/-- A value as long as the length field can say. -/
abbrev Value := { bytes : Bytes // bytes.length < 65536 }

/-- A TLV of any type. -/
structure Record where
  type : UInt16
  value : Value
deriving DecidableEq

namespace Record

def encode (r : Record) : Bytes :=
  u16Bytes r.type ++ leBytes 2 r.value.val.length ++ r.value.val

def toRaw (r : Record) : RawTlv := (r.type, r.value.val)

theorem length_encode (r : Record) : r.encode.length = tlvHeaderLen + r.value.val.length := by
  simp only [encode, List.length_append, length_u16Bytes, length_leBytes, tlvHeaderLen]

end Record

/-- The TLV that bytes begin with, and the bytes behind it. -/
def splitTlv (bytes : Bytes) : Option (Record × Bytes) :=
  if bytes.length < tlvHeaderLen then none
  else
    let rest := bytes.drop tlvHeaderLen
    let tlvLen := readU16 (bytes.drop 2)
    if rest.length < tlvLen.toNat then none
    else
      some (⟨readU16 bytes, rest.take tlvLen.toNat,
        (List.length_take_le ..).trans_lt tlvLen.toNat_lt⟩, rest.drop tlvLen.toNat)

/-- What a reader sees at the head of bytes that begin with this TLV. -/
theorem head_record (r : Record) (rest : Bytes) :
    tlvHeaderLen ≤ (r.encode ++ rest).length ∧ readU16 (r.encode ++ rest) = r.type ∧
      (readU16 ((r.encode ++ rest).drop 2)).toNat = r.value.val.length ∧
      (r.encode ++ rest).drop tlvHeaderLen = r.value.val ++ rest := by
  have hvalue : r.toRaw.2.length < 65536 := r.value.property
  obtain ⟨hsize, hhead⟩ := TlvRoundTrip.head_encode hvalue rest
  change (r.encode ++ rest).length = _ at hsize
  exact ⟨by omega, hhead⟩

theorem splitTlv_iff {bytes rest : Bytes} {r : Record} :
    splitTlv bytes = some (r, rest) ↔ bytes = r.encode ++ rest := by
  constructor
  · intro h
    unfold splitTlv at h
    split at h
    · cases h
    next hheader =>
    dsimp only at h
    split at h
    · cases h
    next hvalue =>
    cases h
    unfold tlvHeaderLen at *
    have htype : leBytes 2 (readU16 bytes).toNat = bytes.take 2 :=
      Chunking.leBytes_readU16 (by omega)
    have hlength : leBytes 2 (readU16 (bytes.drop 2)).toNat = (bytes.drop 2).take 2 :=
      Chunking.leBytes_readU16 (by rw [List.length_drop]; omega)
    have htaken : ((bytes.drop 4).take (readU16 (bytes.drop 2)).toNat).length =
        (readU16 (bytes.drop 2)).toNat := List.length_take_of_le (Nat.not_lt.mp hvalue)
    rw [Record.encode, u16Bytes, htype, htaken, hlength, List.append_assoc, List.append_assoc,
      List.take_append_drop, show bytes.drop 4 = (bytes.drop 2).drop 2 by rw [List.drop_drop],
      List.take_append_drop, List.take_append_drop]
  · rintro rfl
    obtain ⟨hheader, htype, hlength, hbehind⟩ := head_record r rest
    unfold splitTlv
    rw [if_neg (Nat.not_lt.mpr hheader)]
    simp only [hbehind, hlength, htype, List.take_left, List.drop_left]
    rw [if_neg (by rw [List.length_append]; omega)]

theorem Record.encode_ne_nil (r : Record) : r.encode ≠ [] := by
  intro h
  have hlen := r.length_encode
  rw [h, List.length_nil, tlvHeaderLen] at hlen
  omega

/-- TLVs are self-delimiting. -/
def tlvCode : Code Record UInt8 where
  encode := Record.encode
  split := splitTlv
  encode_ne_nil := Record.encode_ne_nil
  split_iff := splitTlv_iff

/-! ## The writer -/

/-- `companion_api_writer_t` over the part of the transmit frame behind the header. -/
structure ByteWriter where
  data : Bytes
  capacity : Nat
  len : Nat
  length_data : data.length = capacity
  len_le : len ≤ capacity

/-- The payload written so far. -/
def ByteWriter.payload (w : ByteWriter) : Bytes := w.data.take w.len

/-- `s_tx_frame`. -/
abbrev TxFrame := { bytes : Bytes // bytes.length = frameMaxLen }

/-- `companion_api_writer_init`. -/
def writerInit (txFrame : TxFrame) : ByteWriter where
  data := txFrame.val.drop headerLen
  capacity := frameMaxLen - headerLen
  len := 0
  length_data := by rw [List.length_drop, txFrame.property]
  len_le := Nat.zero_le _

/-- The three writes of `companion_api_append_tlv`. -/
def writeTlv (data : Bytes) (len : Nat) (type : UInt16) (value : Value) : Bytes :=
  overwrite (overwrite (overwrite data len (u16Bytes type)) (len + 2)
    (leBytes 2 value.val.length)) (len + tlvHeaderLen) value.val

theorem writeTlv_eq {data : Bytes} {len : Nat} (h : len ≤ data.length) (type : UInt16)
    (value : Value) : writeTlv data len type value =
      data.take len ++ ((⟨type, value⟩ : Record).encode ++
        data.drop (len + (tlvHeaderLen + value.val.length))) := by
  have hhead := overwrite_append h (u16Bytes type) (leBytes 2 value.val.length)
  have hall := overwrite_append h (u16Bytes type ++ leBytes 2 value.val.length) value.val
  rw [length_u16Bytes] at hhead
  rw [List.length_append, length_u16Bytes, length_leBytes] at hall
  rw [writeTlv, tlvHeaderLen, hhead, hall, overwrite_of_le h,
    ← show (⟨type, value⟩ : Record).encode =
      u16Bytes type ++ leBytes 2 value.val.length ++ value.val from rfl, Record.length_encode,
    tlvHeaderLen]

/-- `companion_api_append_tlv`; a missing value is the null pointer. -/
def appendTlv (w : ByteWriter) (type : UInt16) (value : Option Value) : Bool × ByteWriter :=
  match value with
  | none => (false, w)
  | some value =>
    if h : w.len + tlvHeaderLen + value.val.length > w.capacity then (false, w)
    else
      (true, {
        data := writeTlv w.data w.len type value
        capacity := w.capacity
        len := w.len + (tlvHeaderLen + value.val.length)
        length_data := by
          have hlen := w.length_data
          have hle := w.len_le
          rw [writeTlv_eq (by omega)]
          simp only [List.length_append, List.length_take, List.length_drop, Record.length_encode]
          omega
        len_le := by omega })

def appendBool (w : ByteWriter) (type : UInt16) (value : Bool) : Bool × ByteWriter :=
  appendTlv w type (some ⟨boolBytes value, by decide +revert⟩)

def appendU8 (w : ByteWriter) (type : UInt16) (value : UInt8) : Bool × ByteWriter :=
  appendTlv w type (some ⟨[value], by simp⟩)

def appendU16 (w : ByteWriter) (type : UInt16) (value : UInt16) : Bool × ByteWriter :=
  appendTlv w type (some ⟨u16Bytes value, by simp⟩)

def appendU32 (w : ByteWriter) (type : UInt16) (value : UInt32) : Bool × ByteWriter :=
  appendTlv w type (some ⟨u32Bytes value, by simp⟩)

/-- `companion_api_append_string` of the bytes before the NUL. -/
def appendString (w : ByteWriter) (type : UInt16) (value : Option Bytes) : Bool × ByteWriter :=
  appendTlv w type (some ⟨stringBytes (value.getD []), by
    rw [stringBytes, List.length_take]
    omega⟩)

/-- A call of one of the functions that append. -/
inductive Append where
  | tlv (type : UInt16) (value : Option Value)
  | bool (type : UInt16) (value : Bool)
  | u8 (type : UInt16) (value : UInt8)
  | u16 (type : UInt16) (value : UInt16)
  | u32 (type : UInt16) (value : UInt32)
  | string (type : UInt16) (value : Option Bytes)

namespace Append

/-- What the call returns, and the writer after it. -/
def perform (w : ByteWriter) : Append → Bool × ByteWriter
  | .tlv type value => appendTlv w type value
  | .bool type value => appendBool w type value
  | .u8 type value => appendU8 w type value
  | .u16 type value => appendU16 w type value
  | .u32 type value => appendU32 w type value
  | .string type value => appendString w type value

/-- The type and the value that the call is to append. -/
def toRaw : Append → RawTlv
  | .tlv type value => (type, (value.map (·.val)).getD [])
  | .bool type value => (type, boolBytes value)
  | .u8 type value => (type, [value])
  | .u16 type value => (type, u16Bytes value)
  | .u32 type value => (type, u32Bytes value)
  | .string type value => (type, stringBytes (value.getD []))

end Append

/-- The writer after a sequence of calls. -/
def performAll (w : ByteWriter) (calls : List Append) : ByteWriter :=
  calls.foldl (fun w call => (call.perform w).2) w

/-- What was appended by the calls that returned true, in order. -/
def appended (w : ByteWriter) : List Append → List RawTlv
  | [] => []
  | call :: calls =>
    (if (call.perform w).1 then [call.toRaw] else []) ++ appended (call.perform w).2 calls

/-! ## One append -/

variable {w w' : ByteWriter} {type : UInt16}

/-- **An append that returns true** puts its TLV behind the payload. -/
theorem appendTlv_true {value : Option Value} (h : (appendTlv w type value).1 = true) :
    ∃ v, value = some v ∧ (appendTlv w type value).2.capacity = w.capacity ∧
      (appendTlv w type value).2.len = w.len + (tlvHeaderLen + v.val.length) ∧
      (appendTlv w type value).2.payload = w.payload ++ (⟨type, v⟩ : Record).encode := by
  unfold appendTlv at h ⊢
  cases value with
  | none => cases h
  | some v =>
    dsimp only at h ⊢
    split at h
    · cases h
    · next hfits =>
      rw [dif_neg hfits]
      refine ⟨v, rfl, rfl, rfl, ?_⟩
      rw [ByteWriter.payload, ByteWriter.payload]
      have htake : (w.data.take w.len).length = w.len := by
        rw [List.length_take, w.length_data]
        exact Nat.min_eq_left w.len_le
      dsimp only
      rw [writeTlv_eq (by rw [w.length_data]; exact w.len_le), ← List.append_assoc,
        List.take_left' (by rw [List.length_append, htake, Record.length_encode])]

/-- An append that returns false changes nothing. -/
theorem appendTlv_false {value : Option Value} (h : (appendTlv w type value).1 = false) :
    (appendTlv w type value).2 = w := by
  unfold appendTlv at h ⊢
  cases value with
  | none => rfl
  | some v =>
    dsimp only at h ⊢
    split at h
    · next hfull => rw [dif_pos hfull]
    · cases h

/-- Every call is an append of its type and its value. -/
theorem perform_eq (w : ByteWriter) (call : Append) :
    ∃ value : Option Value, call.perform w = appendTlv w call.toRaw.1 value ∧
      ∀ v, value = some v → v.val = call.toRaw.2 := by
  cases call with
  | tlv type value =>
    refine ⟨value, rfl, ?_⟩
    rintro v rfl
    rfl
  | bool | u8 | u16 | u32 | string =>
    refine ⟨some ⟨_, _⟩, rfl, ?_⟩
    rintro v ⟨⟩
    rfl

/-- The record a call appends, when it returns true. -/
theorem perform_true {call : Append} (h : (call.perform w).1 = true) :
    ∃ r : Record, r.toRaw = call.toRaw ∧ (call.perform w).2.payload = w.payload ++ r.encode := by
  obtain ⟨value, hperform, hvalue⟩ := perform_eq w call
  rw [hperform] at h ⊢
  obtain ⟨v, rfl, -, -, hpayload⟩ := appendTlv_true h
  exact ⟨⟨call.toRaw.1, v⟩, Prod.ext rfl (hvalue v rfl), hpayload⟩

theorem perform_false {call : Append} (h : (call.perform w).1 = false) :
    (call.perform w).2 = w := by
  obtain ⟨value, hperform, -⟩ := perform_eq w call
  rw [hperform] at h ⊢
  exact appendTlv_false h

/-- **A run of calls** adds the TLVs of those that returned true, and nothing else. -/
theorem performAll_payload (w : ByteWriter) (calls : List Append) :
    ∃ rs : List Record, appended w calls = rs.map Record.toRaw ∧
      (performAll w calls).payload = w.payload ++ tlvCode.stream rs := by
  induction calls generalizing w with
  | nil => exact ⟨[], rfl, (List.append_nil _).symm⟩
  | cons call calls ih =>
    obtain ⟨rs, happended, hpayload⟩ := ih (call.perform w).2
    change (performAll w (call :: calls)).payload = _ at hpayload
    cases hok : (call.perform w).1 with
    | false =>
      rw [perform_false hok] at happended hpayload
      refine ⟨rs, ?_, hpayload⟩
      rw [appended, hok, if_neg (fun h => by cases h), perform_false hok]
      exact happended
    | true =>
      obtain ⟨r, hraw, hmore⟩ := perform_true hok
      refine ⟨r :: rs, ?_, ?_⟩
      · rw [appended, hok, if_pos rfl, happended, ← hraw]
        rfl
      · rw [hpayload, hmore, Code.stream_cons, List.append_assoc]
        rfl

/-! ## The client parses -/

/-- `parse_tlvs` takes a stream of TLVs apart. -/
theorem parseTlvs_stream (rs : List Record) :
    parseTlvs (tlvCode.stream rs) = some (rs.map Record.toRaw) := by
  have hbytes : tlvCode.stream rs = (rs.map Record.toRaw).flatMap TlvRoundTrip.encodeRaw := by
    rw [List.flatMap_map]
    rfl
  rw [parseTlvs, hbytes]
  refine TlvRoundTrip.parseTlvsFrom_raws ?_ (Nat.le_refl _)
  exact List.forall_mem_map.mpr fun r _ => r.value.property

/-! ## The search -/

/-- How the search ends: it read behind the payload, it found nothing, or it found the
value of this length at this offset. -/
inductive Found where
  | outside
  | absent
  | value (offset len : Nat)
deriving DecidableEq, Repr

/-- `companion_api_read_u16` of bytes of the payload. -/
def readU16At (payload : Bytes) (offset : Nat) : Option UInt16 :=
  if offset + 2 ≤ payload.length then some (readU16 (payload.drop offset)) else none

/-- The loop of `companion_api_find_tlv`. -/
def findTlvFrom (payload : Bytes) (type : UInt16) (offset : Nat) : Found :=
  if offset + tlvHeaderLen ≤ payload.length then
    match readU16At payload offset, readU16At payload (offset + 2) with
    | some tlvType, some tlvLen =>
      if offset + tlvHeaderLen + tlvLen.toNat > payload.length then .absent
      else if tlvType = type then .value (offset + tlvHeaderLen) tlvLen.toNat
      else findTlvFrom payload type (offset + tlvHeaderLen + tlvLen.toNat)
    | _, _ => .outside
  else .absent
termination_by payload.length - offset
decreasing_by
  unfold tlvHeaderLen at *
  omega

def findTlv (payload : Bytes) (type : UInt16) : Found := findTlvFrom payload type 0

/-- Where the first TLV of a type lies, in a run of TLVs from this offset on. -/
def located (type : UInt16) : Nat → List Record → Found
  | _, [] => .absent
  | offset, r :: rs =>
    if r.type = type then .value (offset + tlvHeaderLen) r.value.val.length
    else located type (offset + r.encode.length) rs

/-- **The search walks the longest run of TLVs**, and reads nothing outside the payload. -/
theorem findTlvFrom_eq (payload : Bytes) (type : UInt16) {offset : Nat}
    (h : offset ≤ payload.length) :
    findTlvFrom payload type offset = located type offset (tlvCode.words (payload.drop offset)) := by
  have hrest : (payload.drop offset).length = payload.length - offset := List.length_drop
  have hsplit : tlvCode.split (payload.drop offset) = splitTlv (payload.drop offset) := rfl
  rw [findTlvFrom]
  by_cases hheader : offset + tlvHeaderLen ≤ payload.length
  · have htype : readU16At payload offset = some (readU16 (payload.drop offset)) := by
      rw [readU16At, if_pos (by unfold tlvHeaderLen at hheader; omega)]
    have hlength : readU16At payload (offset + 2) =
        some (readU16 ((payload.drop offset).drop 2)) := by
      rw [readU16At, if_pos (by unfold tlvHeaderLen at hheader; omega), List.drop_drop]
    rw [if_pos hheader, htype, hlength]
    dsimp only
    cases hwords : splitTlv (payload.drop offset) with
    | none =>
      -- a header whose value is cut off
      rw [tlvCode.words_none (hsplit.trans hwords), located, if_pos]
      unfold splitTlv at hwords
      rw [if_neg (by omega)] at hwords
      dsimp only at hwords
      split at hwords
      · next hcut =>
        rw [List.length_drop] at hcut
        omega
      · cases hwords
    | some found =>
      obtain ⟨r, rest⟩ := found
      have hdrop := splitTlv_iff.mp hwords
      obtain ⟨-, htype', hlength', -⟩ := head_record r rest
      have hsize := r.length_encode
      have hsum : (payload.drop offset).length = r.encode.length + rest.length := by
        rw [hdrop, List.length_append]
      have hnext : payload.drop (offset + r.encode.length) = rest := by
        rw [← List.drop_drop, hdrop, List.drop_left]
      have hwalk : tlvCode.words (payload.drop offset) = r :: tlvCode.words rest := by
        rw [hdrop]
        exact tlvCode.words_encode r rest
      rw [hwalk, located, hdrop, htype', hlength', if_neg (by omega), Nat.add_assoc, ← hsize,
        findTlvFrom_eq payload type (by omega), hnext]
  · rw [if_neg hheader, tlvCode.words_none, located]
    rw [hsplit, splitTlv, if_pos (by omega)]
termination_by payload.length - offset
decreasing_by
  unfold tlvHeaderLen at *
  omega

/-- The search ends with this value, which lies in the payload, or with none. -/
def Returns (payload : Bytes) : Found → Option Bytes → Prop
  | .value offset len, some value =>
    offset + len ≤ payload.length ∧ slice payload offset len = value ∧ len = value.length
  | .absent, none => True
  | _, _ => False

theorem returns_located (type : UInt16) (before rest : Bytes) (rs : List Record) :
    Returns (before ++ tlvCode.stream rs ++ rest) (located type before.length rs)
      ((rs.find? (·.type == type)).map (·.value.val)) := by
  induction rs generalizing before with
  | nil => trivial
  | cons r rs ih =>
    have hsize := r.length_encode
    by_cases htype : r.type = type
    · rw [located, if_pos htype, List.find?_cons_of_pos (by simpa using htype), Code.stream_cons]
      change Returns (before ++ (r.encode ++ tlvCode.stream rs) ++ rest) _ _
      have hparts : before ++ (r.encode ++ tlvCode.stream rs) ++ rest =
          (before ++ (u16Bytes r.type ++ leBytes 2 r.value.val.length)) ++
            (r.value.val ++ (tlvCode.stream rs ++ rest)) := by
        simp only [Record.encode, List.append_assoc]
      have hlen : (before ++ (u16Bytes r.type ++ leBytes 2 r.value.val.length)).length =
          before.length + tlvHeaderLen := by
        simp only [List.length_append, length_u16Bytes, length_leBytes, tlvHeaderLen]
      refine ⟨?_, ?_, rfl⟩
      · rw [hparts, List.length_append, hlen, List.length_append]
        omega
      · rw [slice, hparts, List.drop_left' hlen, List.take_left]
    · rw [located, if_neg htype, List.find?_cons_of_neg (by simpa using htype), Code.stream_cons]
      have hnext := ih (before ++ r.encode)
      rw [List.length_append] at hnext
      simp only [List.append_assoc] at hnext ⊢
      exact hnext

theorem findTlv_returns (payload : Bytes) (type : UInt16) :
    Returns payload (findTlv payload type)
      (((tlvCode.words payload).find? (·.type == type)).map (·.value.val)) := by
  obtain ⟨rest, hrest⟩ := tlvCode.stream_words_prefix payload
  have h := returns_located type [] rest (tlvCode.words payload)
  rw [List.nil_append, hrest] at h
  rw [findTlv, findTlvFrom_eq payload type (Nat.zero_le _)]
  exact h

/-! ## The writer and the search of the handlers

The handlers are modelled over lists of TLVs and over the rest of the payload. -/

/-- A list of TLVs stands for what is in the buffer. -/
structure Represents (tlvs : Writer) (w : ByteWriter) : Prop where
  capacity : w.capacity = writerCapacity
  len : w.len = Writer.len tlvs
  payload : w.payload = tlvs.flatMap TlvEntry.encode

theorem represents_init (txFrame : TxFrame) : Represents [] (writerInit txFrame) :=
  ⟨rfl, rfl, List.take_zero⟩

theorem appendTlv_refines {tlvs : Writer} (h : Represents tlvs w) (type : TlvType) (value : Value) :
    match tryAppend tlvs type value.val with
    | some tlvs' => (appendTlv w type.code (some value)).1 = true ∧
        Represents tlvs' (appendTlv w type.code (some value)).2
    | none => (appendTlv w type.code (some value)).1 = false := by
  unfold tryAppend
  by_cases hfull : Writer.len tlvs + tlvHeaderLen + value.val.length > writerCapacity
  · rw [if_pos hfull]
    have hfull' : w.len + tlvHeaderLen + value.val.length > w.capacity := by
      rw [h.len, h.capacity]
      exact hfull
    simp only [appendTlv, dif_pos hfull']
  · rw [if_neg hfull]
    have hfits : ¬ w.len + tlvHeaderLen + value.val.length > w.capacity := by
      rw [h.len, h.capacity]
      exact hfull
    have htrue : (appendTlv w type.code (some value)).1 = true := by
      simp only [appendTlv, dif_neg hfits]
    obtain ⟨v, hv, hcapacity, hlen, hpayload⟩ := appendTlv_true htrue
    cases hv
    refine ⟨htrue, hcapacity.trans h.capacity, ?_, ?_⟩
    · rw [hlen, h.len, Writer.len, Writer.len, List.map_append, List.sum_append]
      rfl
    · rw [hpayload, h.payload, List.flatMap_append, List.flatMap_singleton]
      rfl

theorem findTlvFrom_words (type : UInt16) {fuel : Nat} {payload : Bytes}
    (hfuel : payload.length ≤ fuel) : Tlv.findTlvFrom type fuel payload =
      ((tlvCode.words payload).find? (·.type == type)).map (·.value.val) := by
  induction fuel generalizing payload with
  | zero =>
    rw [List.length_eq_zero_iff.mp (Nat.le_zero.mp hfuel), Tlv.findTlvFrom, tlvCode.words_nil]
    rfl
  | succ fuel ih =>
    have hsplit : tlvCode.split payload = splitTlv payload := rfl
    rw [Tlv.findTlvFrom]
    cases hwords : splitTlv payload with
    | none =>
      rw [tlvCode.words_none (hsplit.trans hwords)]
      unfold splitTlv at hwords
      split at hwords
      · next hheader => rw [if_pos hheader]; rfl
      next hheader =>
      dsimp only at hwords
      split at hwords
      · next hvalue =>
        rw [if_neg hheader]
        dsimp only
        rw [if_pos hvalue]
        rfl
      · cases hwords
    | some found =>
      obtain ⟨r, rest⟩ := found
      obtain rfl := splitTlv_iff.mp hwords
      obtain ⟨hheader, htype, hlength, hbehind⟩ := head_record r rest
      rw [List.length_append, r.length_encode, tlvHeaderLen] at hfuel
      have hwalk : tlvCode.words (r.encode ++ rest) = r :: tlvCode.words rest :=
        tlvCode.words_encode r rest
      rw [if_neg (Nat.not_lt.mpr hheader), hwalk]
      dsimp only
      rw [htype, hlength, hbehind, if_neg (by rw [List.length_append]; omega), List.take_left,
        List.drop_left, ih (by omega)]
      by_cases hfound : r.type = type
      · rw [if_pos hfound, List.find?_cons_of_pos (by simpa using hfound)]
        rfl
      · rw [if_neg hfound, List.find?_cons_of_neg (by simpa using hfound)]

theorem findTlv_refines (payload : Bytes) (type : TlvType) :
    Returns payload (findTlv payload type.code) (Tlv.findTlv payload type) := by
  rw [Tlv.findTlv, findTlvFrom_words type.code (Nat.le_refl _)]
  exact findTlv_returns payload type.code

/-! ## The client writes -/

/-- `write_u16`; `none` is the `struct.error` of a number that does not fit. -/
def writeU16 (value : Int) : Option Bytes :=
  if 0 ≤ value ∧ value < 65536 then some (leBytes 2 value.toNat) else none

/-- `tlv_bytes`. -/
def tlvBytes (tlvType : Int) (value : Bytes) : Option Bytes :=
  match writeU16 tlvType, writeU16 value.length with
  | some typeBytes, some lenBytes => some (typeBytes ++ lenBytes ++ value)
  | _, _ => none

/-- The payload that is joined of such TLVs. -/
def clientPayload : List (Int × Bytes) → Option Bytes
  | [] => some []
  | t :: tlvs =>
    match tlvBytes t.1 t.2, clientPayload tlvs with
    | some first, some more => some (first ++ more)
    | _, _ => none

theorem writeU16_some {value : Int} {bytes : Bytes} (h : writeU16 value = some bytes) :
    ∃ n : UInt16, value = n.toNat ∧ bytes = u16Bytes n := by
  unfold writeU16 at h
  split at h
  · next hrange =>
    have hn : (UInt16.ofNat value.toNat).toNat = value.toNat := by
      rw [UInt16.toNat_ofNat', Nat.mod_eq_of_lt (by omega)]
    refine ⟨.ofNat value.toNat, by rw [hn]; omega, ?_⟩
    rw [u16Bytes, hn]
    exact (Option.some.inj h).symm
  · cases h

theorem tlvBytes_some {tlvType : Int} {value bytes : Bytes} (h : tlvBytes tlvType value = some bytes) :
    ∃ r : Record, bytes = r.encode ∧ tlvType = r.type.toNat ∧ r.value.val = value := by
  unfold tlvBytes at h
  split at h
  · next typeBytes lenBytes htype hlen =>
    obtain ⟨type, rfl, rfl⟩ := writeU16_some htype
    obtain ⟨n, hn, rfl⟩ := writeU16_some hlen
    have hlength : value.length = n.toNat := by omega
    have hbytes : u16Bytes n = leBytes 2 value.length := congrArg (leBytes 2) hlength.symm
    refine ⟨⟨type, value, hlength ▸ n.toNat_lt⟩, ?_, rfl, rfl⟩
    rw [← Option.some.inj h, hbytes]
    rfl
  · cases h

theorem clientPayload_some {tlvs : List (Int × Bytes)} {payload : Bytes}
    (h : clientPayload tlvs = some payload) :
    ∃ rs : List Record, payload = tlvCode.stream rs ∧
      tlvs = rs.map fun r => ((r.type.toNat : Int), r.value.val) := by
  induction tlvs generalizing payload with
  | nil =>
    cases h
    exact ⟨[], rfl, rfl⟩
  | cons t tlvs ih =>
    rw [clientPayload] at h
    split at h
    · next first more hfirst hmore =>
      cases h
      obtain ⟨r, rfl, htype, hvalue⟩ := tlvBytes_some hfirst
      obtain ⟨rs, rfl, rfl⟩ := ih hmore
      refine ⟨r :: rs, rfl, ?_⟩
      rw [List.map_cons, ← htype, hvalue]
    · cases h

/-! ## Writer and readers agree -/

/-- **TLV writer and readers agree.** The client parses out of the transmit frame the
TLVs whose appends returned true, and an append that returned false changed nothing. The
search of any payload reads nothing outside it and ends with the first value of the type
in the one longest run of TLVs that begins the payload; of a payload the client joined,
with the first value the client put in. -/
theorem tlvs_agree (txFrame : TxFrame) (calls : List Append) (payload : Bytes) (type : UInt16) :
    parseTlvs (performAll (writerInit txFrame) calls).payload =
        some (appended (writerInit txFrame) calls) ∧
      (∀ (w w' : ByteWriter) (call : Append), call.perform w = (false, w') → w' = w) ∧
      (∃ tlvs, (∀ other, tlvCode.Longest payload other ↔ other = tlvs) ∧
        Returns payload (findTlv payload type)
          ((tlvs.find? (·.type == type)).map (·.value.val))) ∧
      ∀ tlvs, clientPayload tlvs = some payload →
        Returns payload (findTlv payload type)
          ((tlvs.find? (·.1 == (type.toNat : Int))).map Prod.snd) := by
  refine ⟨?_, ?_, ⟨tlvCode.words payload, ?_, findTlv_returns payload type⟩, ?_⟩
  · obtain ⟨rs, happended, hpayload⟩ := performAll_payload (writerInit txFrame) calls
    have hempty : (writerInit txFrame).payload = [] := List.take_zero
    rw [hpayload, hempty, List.nil_append, parseTlvs_stream, happended]
  · intro w w' call h
    have hsame := perform_false (congrArg Prod.fst h)
    rw [h] at hsame
    exact hsame
  · exact fun other => tlvCode.longest_iff
  · intro tlvs h
    obtain ⟨rs, rfl, rfl⟩ := clientPayload_some h
    have hfound := findTlv_returns (tlvCode.stream rs) type
    rw [Code.words_stream] at hfound
    rw [List.find?_map, Option.map_map]
    have hsame : ((fun t : Int × Bytes => t.1 == (type.toNat : Int)) ∘
        fun r : Record => ((r.type.toNat : Int), r.value.val)) = fun r => r.type == type := by
      funext r
      rw [Bool.eq_iff_iff]
      simp [UInt16.toNat_inj]
    rw [hsame]
    exact hfound

end Jukeboy.CompanionApi.TlvBuffer
