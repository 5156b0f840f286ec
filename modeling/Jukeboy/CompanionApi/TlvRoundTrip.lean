import Jukeboy.Base.Utf8
import Jukeboy.CompanionApi.BleClient
import Jukeboy.CompanionApi.ServiceHandlers
import Mathlib.Algebra.Order.BigOperators.Group.List

/-! # TLVs there and back

What one side appends, the other takes out: a reply's TLVs as the client parses them, and
a request's as the firmware finds them. -/
namespace Jukeboy.CompanionApi.TlvRoundTrip

open Jukeboy.Base Jukeboy.Base.Utf8 Jukeboy.Base.LittleEndian
open Jukeboy.CompanionApi.Tlv Jukeboy.CompanionApi.Protocol
open Jukeboy.CompanionApi.ServiceHandlers Jukeboy.CompanionApi.BleClient

/-! ## Values -/

/-- `tlv_value_u8`; `none` is the `ValueError`. -/
def tlvValueU8 : Bytes → Option UInt8
  | [v] => some v
  | _ => none

/-- `tlv_value_u32`. -/
def tlvValueU32 (value : Bytes) : Option UInt32 :=
  if value.length ≠ 4 then none else some (readU32 value)

/-- `tlv_value_bool`. -/
def tlvValueBool (value : Bytes) : Option Bool := (tlvValueU8 value).map (· != 0)

/-- `tlv_value_string`. -/
def tlvValueString (value : Bytes) : Text := decode value

@[simp] theorem tlvValueU8_singleton (v : UInt8) : tlvValueU8 [v] = some v := rfl

@[simp] theorem tlvValueU32_u32Bytes (v : UInt32) : tlvValueU32 (u32Bytes v) = some v := by
  have hread := Chunking.readU32_u32Bytes v []
  rw [List.append_nil] at hread
  rw [tlvValueU32, if_neg (not_not.mpr (length_u32Bytes v)), hread]

@[simp] theorem tlvValueBool_boolBytes (v : Bool) : tlvValueBool (boolBytes v) = some v := by
  cases v <;> rfl

/-- The names of the client's `Opcode`, in lower case. -/
def opcodeNames : List (UInt16 × String) :=
  [(0x0001, "hello"), (0x0002, "capabilities"), (0x0003, "ping"), (0x0010, "pair_begin"),
    (0x0011, "pair_status"), (0x0012, "pair_cancel"), (0x0013, "auth_challenge"),
    (0x0014, "auth_proof"), (0x0015, "trusted_list"), (0x0016, "trusted_revoke"),
    (0x0100, "snapshot"), (0x0101, "playback_status"), (0x0102, "playback_control"),
    (0x0110, "library_album"), (0x0111, "library_track_page"), (0x0112, "library_cover"),
    (0x0200, "wifi_status"), (0x0201, "wifi_scan_start"), (0x0202, "wifi_scan_results"),
    (0x0203, "wifi_connect"), (0x0204, "wifi_connect_slot"), (0x0205, "wifi_disconnect"),
    (0x0206, "wifi_autoreconnect"), (0x0300, "lastfm_status"), (0x0301, "lastfm_control"),
    (0x0400, "history_summary"), (0x0401, "history_album_page"), (0x0500, "bt_audio_status"),
    (0x0501, "bt_audio_control")]

/-- `opcode_name`; an unknown opcode is shown as four hexadecimal digits. -/
def opcodeName (opcode : UInt16) : String :=
  (opcodeNames.lookup opcode).getD ("0x" ++ String.ofList
    ([3, 2, 1, 0].map fun i => Nat.digitChar (opcode.toNat / 16 ^ i % 16)))

/-! ## Appending -/

theorem appendAll_append (w : Writer) (a b : List (TlvType × Bytes)) :
    appendAll (appendAll w a) b = appendAll w (a ++ b) := List.foldl_append.symm

theorem appendAll_nil (w : Writer) : appendAll w [] = w := rfl

theorem append_eq (w : Writer) (type : TlvType) (value : Bytes) :
    append w type value = appendAll w [(type, value)] := rfl

/-- An entry as a TLV. -/
def toTlv (entry : TlvType × Bytes) : TlvEntry := ⟨entry.1, entry.2⟩

/-- The bytes that some entries take. -/
def size (entries : List (TlvType × Bytes)) : Nat :=
  (entries.map fun entry => tlvHeaderLen + entry.2.length).sum

@[simp] theorem size_nil : size [] = 0 := rfl

@[simp] theorem size_cons (type : TlvType) (value : Bytes) (entries : List (TlvType × Bytes)) :
    size ((type, value) :: entries) = tlvHeaderLen + value.length + size entries := rfl

@[simp] theorem size_append (a b : List (TlvType × Bytes)) : size (a ++ b) = size a + size b := by
  rw [size, List.map_append, List.sum_append]
  rfl

/-- No append fails while there is room for everything. -/
theorem appendAll_fits (w : Writer) (entries : List (TlvType × Bytes))
    (h : Writer.len w + size entries ≤ writerCapacity) :
    appendAll w entries = w ++ entries.map toTlv := by
  induction entries generalizing w with
  | nil => exact (List.append_nil w).symm
  | cons entry entries ih =>
    obtain ⟨type, value⟩ := entry
    rw [size_cons] at h
    have happend : append w type value = w ++ [⟨type, value⟩] := by
      rw [append, tryAppend, if_neg (by omega), Option.getD_some]
    have hlen : Writer.len (w ++ [⟨type, value⟩]) =
        Writer.len w + (tlvHeaderLen + value.length) := by
      simp [Writer.len, TlvEntry.size]
    change appendAll (append w type value) entries = _
    rw [happend, ih _ (by rw [hlen]; omega), List.append_assoc]
    rfl

theorem length_le_size {entries : List (TlvType × Bytes)} {entry : TlvType × Bytes}
    (h : entry ∈ entries) : entry.2.length ≤ size entries := by
  have hle : tlvHeaderLen + entry.2.length ≤ size entries :=
    List.le_sum_of_mem (List.mem_map.mpr ⟨entry, h, rfl⟩)
  omega

/-! ## Taking TLVs out -/

/-- The bytes of a TLV of any type. -/
def encodeRaw (raw : RawTlv) : Bytes := u16Bytes raw.1 ++ leBytes 2 raw.2.length ++ raw.2

theorem length_encodeRaw (raw : RawTlv) :
    (encodeRaw raw).length = tlvHeaderLen + raw.2.length := by
  simp only [encodeRaw, List.length_append, length_u16Bytes, length_leBytes, tlvHeaderLen]

/-- What a reader sees at the head of a payload that starts with this TLV. -/
theorem head_encode {raw : RawTlv} (hvalue : raw.2.length < 65536) (more : Bytes) :
    (encodeRaw raw ++ more).length = tlvHeaderLen + raw.2.length + more.length ∧
      readU16 (encodeRaw raw ++ more) = raw.1 ∧
      (readU16 ((encodeRaw raw ++ more).drop 2)).toNat = raw.2.length ∧
      (encodeRaw raw ++ more).drop tlvHeaderLen = raw.2 ++ more := by
  have hparts : encodeRaw raw ++ more =
      u16Bytes raw.1 ++ (leBytes 2 raw.2.length ++ (raw.2 ++ more)) := by
    simp only [encodeRaw, List.append_assoc]
  have hdrop : (encodeRaw raw ++ more).drop 2 =
      leBytes 2 raw.2.length ++ (raw.2 ++ more) := by
    rw [hparts, List.drop_left' (length_u16Bytes _)]
  refine ⟨?_, ?_, ?_, ?_⟩
  · rw [List.length_append, length_encodeRaw]
  · rw [hparts, Chunking.readU16_u16Bytes]
  · rw [hdrop, Chunking.toNat_readU16_leBytes _ hvalue]
  · rw [show tlvHeaderLen = 2 + 2 from rfl, ← List.drop_drop, hdrop,
      List.drop_left' (length_leBytes 2 _)]

/-- `parse_tlvs` takes TLVs one behind the other apart. -/
theorem parseTlvsFrom_raws {raws : List RawTlv} {fuel : Nat}
    (hlen : ∀ raw ∈ raws, raw.2.length < 65536)
    (hfuel : (raws.flatMap encodeRaw).length ≤ fuel) :
    parseTlvsFrom fuel (raws.flatMap encodeRaw) = some raws := by
  induction raws generalizing fuel with
  | nil => cases fuel <;> rfl
  | cons raw raws ih =>
    rw [List.forall_mem_cons] at hlen
    rw [List.flatMap_cons] at hfuel ⊢
    obtain ⟨hsize, hcode, hread, hdrop⟩ := head_encode hlen.1 (raws.flatMap encodeRaw)
    rw [hsize] at hfuel
    cases fuel with
    | zero =>
      unfold tlvHeaderLen at hfuel
      omega
    | succ fuel =>
      have hfewer : (raws.flatMap encodeRaw).length ≤ fuel := by
        unfold tlvHeaderLen at hfuel
        omega
      rw [parseTlvsFrom, if_neg (by omega)]
      dsimp only
      rw [hcode, hread, hdrop, if_neg (by rw [List.length_append]; omega), List.drop_left,
        List.take_left, ih hlen.2 hfewer]
      rfl

/-- A TLV as the client takes it. -/
def toRaw (entry : TlvType × Bytes) : RawTlv := (entry.1.code, entry.2)

theorem parseTlvsFrom_encode {entries : List (TlvType × Bytes)} {fuel : Nat}
    (hlen : ∀ entry ∈ entries, entry.2.length < 65536)
    (hfuel : ((entries.map toTlv).flatMap TlvEntry.encode).length ≤ fuel) :
    parseTlvsFrom fuel ((entries.map toTlv).flatMap TlvEntry.encode) = some (entries.map toRaw) := by
  have hbytes : (entries.map toTlv).flatMap TlvEntry.encode =
      (entries.map toRaw).flatMap encodeRaw := by
    rw [List.flatMap_map, List.flatMap_map]
    rfl
  rw [hbytes] at hfuel ⊢
  exact parseTlvsFrom_raws (List.forall_mem_map.mpr hlen) hfuel

/-- One turn of the search over a TLV. -/
theorem findTlvFrom_encode {t : TlvEntry} (hvalue : t.value.length < 65536) (more : Bytes)
    (code : UInt16) (fuel : Nat) :
    findTlvFrom code (fuel + 1) (t.encode ++ more) =
      if t.type.code = code then some t.value else findTlvFrom code fuel more := by
  obtain ⟨hsize, hcode, hread, hdrop⟩ := @head_encode (t.type.code, t.value) hvalue more
  change findTlvFrom code (fuel + 1) (encodeRaw (t.type.code, t.value) ++ more) = _
  rw [findTlvFrom, if_neg (by omega)]
  dsimp only
  rw [hcode, hread, hdrop, if_neg (by rw [List.length_append]; omega), List.take_left,
    List.drop_left]

/-- A reply whose TLVs fit reaches the client with all of them. -/
theorem decodeFrame_reply {entries : List (TlvType × Bytes)} {opcode : UInt16}
    (requestId : UInt32) (hsize : size entries ≤ writerCapacity)
    (hop : opcode ≠ Opcode.ping.code) :
    ∃ payload, decodeFrame
        (Frame.encode ⟨.response, opcode, requestId, .tlvs (entries.map toTlv)⟩) =
      some ⟨.response, opcode, requestId, payload, some (entries.map toRaw)⟩ := by
  have hlen : ((entries.map toTlv).flatMap TlvEntry.encode).length = size entries := by
    rw [List.length_flatMap, List.map_map, size]
    refine congrArg List.sum (List.map_congr_left fun entry _ => ?_)
    simp [toTlv, TlvEntry.encode, tlvHeaderLen]
    omega
  unfold writerCapacity headerLen frameMaxLen at hsize
  have hvalues : ∀ entry ∈ entries, entry.2.length < 65536 := by
    intro entry hmem
    have hle := length_le_size hmem
    omega
  have hparse : parseTlvs ((entries.map toTlv).flatMap TlvEntry.encode) = some (entries.map toRaw) :=
    parseTlvsFrom_encode hvalues (Nat.le_refl _)
  let f : WireFrame := ⟨.response, opcode, requestId, (entries.map toTlv).flatMap TlvEntry.encode⟩
  have hwf : f.WellFormed := by
    refine ⟨?_, fun htype => by cases htype⟩
    change headerLen + ((entries.map toTlv).flatMap TlvEntry.encode).length ≤ frameMaxLen
    unfold headerLen frameMaxLen
    omega
  have htlvs : f.decoded.tlvs = some (entries.map toRaw) := by
    rw [WireFrame.decoded, ← hparse]
    exact if_pos (Or.inr hop)
  have hencode : Frame.encode ⟨.response, opcode, requestId, .tlvs (entries.map toTlv)⟩ =
      f.encode := f.encode_eq_encodeFrame.symm
  refine ⟨f.payload, ?_⟩
  rw [hencode, WireFrame.decodeFrame_encode hwf, ← htlvs]
  rfl

end Jukeboy.CompanionApi.TlvRoundTrip
