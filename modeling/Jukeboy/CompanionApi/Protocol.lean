import Jukeboy.CompanionApi.Tlv

/-! # Opcodes, errors and frames of the companion API -/
namespace Jukeboy.CompanionApi.Protocol
open Jukeboy.Base Jukeboy.Base.LittleEndian Jukeboy.CompanionApi.Tlv

def magic0 : UInt8 := 0x4A
def magic1 : UInt8 := 0x43
def apiVersion : UInt8 := 1

/-! ## Errors -/

/-- `companion_api_error_t`. -/
inductive ApiError where
  | ok | badFrame | unsupportedVersion | unknownOpcode | authRequired | invalidArg | invalidState
  | noMem | timeout | notFound | internal
deriving DecidableEq, Repr

def ApiError.code : ApiError → UInt16
  | .ok => 0 | .badFrame => 1 | .unsupportedVersion => 2 | .unknownOpcode => 3
  | .authRequired => 4 | .invalidArg => 5 | .invalidState => 6 | .noMem => 7 | .timeout => 8
  | .notFound => 9 | .internal => 10

/-- `companion_api_error_name`. -/
def errorName : ApiError → String
  | .ok => "ok"
  | .badFrame => "bad_frame"
  | .unsupportedVersion => "unsupported_version"
  | .unknownOpcode => "unknown_opcode"
  | .authRequired => "auth_required"
  | .invalidArg => "invalid_arg"
  | .invalidState => "invalid_state"
  | .noMem => "no_mem"
  | .timeout => "timeout"
  | .notFound => "not_found"
  | .internal => "internal"

/-- `companion_api_error_from_esp`. -/
def errorFromEsp : EspErr → ApiError
  | .ok => .ok
  | .invalidArg => .invalidArg
  | .invalidState => .invalidState
  | .noMem => .noMem
  | .timeout => .timeout
  | .notFound => .notFound
  | .nvsNotFound => .notFound
  | _ => .internal

/-! ## Opcodes -/

/-- `companion_api_opcode_t`. -/
inductive Opcode where
  | hello | capabilities | ping
  | pairBegin | pairStatus | pairCancel | authChallenge | authProof | trustedList | trustedRevoke
  | snapshot | playbackStatus | playbackControl | outputStatus | outputSelect
  | libraryAlbum | libraryTrackPage | libraryCover
  | wifiStatus | wifiScanStart | wifiScanResults | wifiConnect | wifiConnectSlot | wifiDisconnect
  | wifiAutoreconnect | wifiListSlots | wifiSaveSlot | wifiReconnect
  | lastfmStatus | lastfmControl | lastfmRequestToken
  | historySummary | historyAlbumPage | historyTrackPage | historyClear
  | btAudioStatus | btAudioControl | btScanStart | btScanResults | btBondedList | btUnbond
  | hidStatus | hidLedSet
  | scriptStatus | scriptList | scriptLog | scriptRun
  | systemReboot | systemRebootDownload
deriving DecidableEq, Repr

def Opcode.code : Opcode → UInt16
  | .hello => 0x0001 | .capabilities => 0x0002 | .ping => 0x0003
  | .pairBegin => 0x0010 | .pairStatus => 0x0011 | .pairCancel => 0x0012
  | .authChallenge => 0x0013 | .authProof => 0x0014 | .trustedList => 0x0015
  | .trustedRevoke => 0x0016
  | .snapshot => 0x0100 | .playbackStatus => 0x0101 | .playbackControl => 0x0102
  | .outputStatus => 0x0103 | .outputSelect => 0x0104
  | .libraryAlbum => 0x0110 | .libraryTrackPage => 0x0111 | .libraryCover => 0x0112
  | .wifiStatus => 0x0200 | .wifiScanStart => 0x0201 | .wifiScanResults => 0x0202
  | .wifiConnect => 0x0203 | .wifiConnectSlot => 0x0204 | .wifiDisconnect => 0x0205
  | .wifiAutoreconnect => 0x0206 | .wifiListSlots => 0x0207 | .wifiSaveSlot => 0x0208
  | .wifiReconnect => 0x0209
  | .lastfmStatus => 0x0300 | .lastfmControl => 0x0301 | .lastfmRequestToken => 0x0302
  | .historySummary => 0x0400 | .historyAlbumPage => 0x0401 | .historyTrackPage => 0x0402
  | .historyClear => 0x0403
  | .btAudioStatus => 0x0500 | .btAudioControl => 0x0501 | .btScanStart => 0x0502
  | .btScanResults => 0x0503 | .btBondedList => 0x0504 | .btUnbond => 0x0505
  | .hidStatus => 0x0600 | .hidLedSet => 0x0601
  | .scriptStatus => 0x0700 | .scriptList => 0x0701 | .scriptLog => 0x0702 | .scriptRun => 0x0703
  | .systemReboot => 0x0F00 | .systemRebootDownload => 0x0F01

def Opcode.all : List Opcode :=
  [.hello, .capabilities, .ping, .pairBegin, .pairStatus, .pairCancel, .authChallenge, .authProof,
    .trustedList, .trustedRevoke, .snapshot, .playbackStatus, .playbackControl, .outputStatus,
    .outputSelect, .libraryAlbum, .libraryTrackPage, .libraryCover, .wifiStatus, .wifiScanStart,
    .wifiScanResults, .wifiConnect, .wifiConnectSlot, .wifiDisconnect, .wifiAutoreconnect,
    .wifiListSlots, .wifiSaveSlot, .wifiReconnect, .lastfmStatus, .lastfmControl,
    .lastfmRequestToken, .historySummary, .historyAlbumPage, .historyTrackPage, .historyClear,
    .btAudioStatus, .btAudioControl, .btScanStart, .btScanResults, .btBondedList, .btUnbond,
    .hidStatus, .hidLedSet, .scriptStatus, .scriptList, .scriptLog, .scriptRun, .systemReboot,
    .systemRebootDownload]

/-- The opcode with this code, if there is one: the `case` a `switch` takes. -/
def Opcode.ofCode (code : UInt16) : Option Opcode := Opcode.all.find? (·.code == code)

theorem Opcode.ofCode_code (op : Opcode) : Opcode.ofCode op.code = some op := by
  cases op <;> decide

/-- `companion_api_opcode_requires_auth`. -/
def opcodeRequiresAuth (opcode : UInt16) : Bool :=
  match Opcode.ofCode opcode with
  | some .hello | some .capabilities | some .ping | some .pairBegin | some .pairStatus
  | some .pairCancel | some .authChallenge | some .authProof => false
  | _ => true

/-! ## Frames -/

/-- `companion_api_frame_type_t`. -/
inductive FrameType where
  | request | response | event | heartbeat | error
deriving DecidableEq, Repr

def FrameType.code : FrameType → UInt8
  | .request => 1 | .response => 2 | .event => 3 | .heartbeat => 4 | .error => 5

/-- The payload of a frame the firmware sends: appended TLVs, or the bytes of
the ping it echoes. -/
inductive Payload where
  | tlvs (w : Writer)
  | echo (bytes : Bytes)
deriving DecidableEq, Repr

def Payload.encode : Payload → Bytes
  | .tlvs w => w.flatMap TlvEntry.encode
  | .echo bytes => bytes

structure Frame where
  type : FrameType
  opcode : UInt16
  requestId : UInt32
  payload : Payload
deriving DecidableEq, Repr

/-- The header and the payload of a frame of this type. -/
def encodeFrame (type : UInt8) (opcode : UInt16) (requestId : UInt32) (payload : Bytes) : Bytes :=
  [magic0, magic1, apiVersion, type] ++ u16Bytes opcode ++ u32Bytes requestId ++
    leBytes 2 payload.length ++ payload

def Frame.encode (f : Frame) : Bytes :=
  encodeFrame f.type.code f.opcode f.requestId f.payload.encode

end Jukeboy.CompanionApi.Protocol
