import Jukeboy.Base.EspErr
import Jukeboy.Base.LittleEndian

/-! # TLV payloads of the companion API

The writer that appends to the transmit frame, the readers of a request
payload, and the C strings both exchange. -/
namespace Jukeboy.CompanionApi.Tlv
open Jukeboy.Base Jukeboy.Base.LittleEndian

abbrev Bytes := List UInt8

def frameMaxLen : Nat := 2048
def headerLen : Nat := 12
def tlvHeaderLen : Nat := 4

/-- `companion_api_tlv_type_t`, as far as the firmware reads or appends it. -/
inductive TlvType where
  | status | errorCode | errorMessage | protocolVersion | featureBits | maxFrame | mtu | maxPayload
  | authenticated | clientId | appName | sharedSecret | buttonSequence | pairingPending
  | pairingProgress | pairingRequired | authNonce | authHmac | trustedCount | createdAt
  | generation | uptimeMs | queueFree | rxFrames | txFrames | rxErrors
  | playing | paused | trackIndex | trackCount | positionSec | startedAt | durationSec
  | volumePercent | playbackMode | trackTitle | trackArtist | trackFile | action | value
  | outputTarget
  | cartridgeStatus | cartridgeMounted | cartridgeChecksum | metadataVersion | albumName
  | albumArtist | albumDescription | albumYear | albumDuration | albumGenre | offset | count
  | returnedCount | totalSize | binaryData | mimeType | albumHasCover
  | wifiState | wifiInternet | wifiAutoreconnect | wifiActiveSlot | wifiPreferredSlot | wifiIp
  | wifiSsid | wifiPassword | wifiSlot | wifiRssi | wifiChannel | wifiAuthmode
  | lastfmHasAuthUrl | lastfmHasToken | lastfmHasSession | lastfmBusy | lastfmScrobbling
  | lastfmNowPlaying | lastfmPendingCommands | lastfmPendingScrobbles | lastfmSuccessful
  | lastfmFailed | lastfmAuthUrl | lastfmUsername
  | historyAlbumCount | historyTrackCount | historyPlayCount | historyFirstSeen | historyLastSeen
  | btA2dpConnected | btBondedCount | btAddr | btName | btRssi | btCod | btScanRunning
  | wifiSlotConfigured | wifiSlotPreferred | wifiSlotActive
  | hidButtonBitmap | hidAdcRaw | hidLedR | hidLedG | hidLedB | hidLedBrightness | hidLedOff
  | scriptState | scriptName | scriptResolvedPath | scriptMessage | scriptOutput | scriptRunId
  | scriptExitCode | scriptKind | scriptSize | scriptArgs
deriving DecidableEq, Repr

def TlvType.code : TlvType → UInt16
  | .status => 0x0001 | .errorCode => 0x0002 | .errorMessage => 0x0003
  | .protocolVersion => 0x0004 | .featureBits => 0x0005 | .maxFrame => 0x0006
  | .mtu => 0x0007 | .maxPayload => 0x0008
  | .authenticated => 0x0100 | .clientId => 0x0101 | .appName => 0x0102
  | .sharedSecret => 0x0103 | .buttonSequence => 0x0104 | .pairingPending => 0x0105
  | .pairingProgress => 0x0106 | .pairingRequired => 0x0107 | .authNonce => 0x0108
  | .authHmac => 0x0109 | .trustedCount => 0x010A | .createdAt => 0x010B
  | .generation => 0x0200 | .uptimeMs => 0x0201 | .queueFree => 0x0202
  | .rxFrames => 0x0203 | .txFrames => 0x0204 | .rxErrors => 0x0205
  | .playing => 0x0300 | .paused => 0x0301 | .trackIndex => 0x0302 | .trackCount => 0x0303
  | .positionSec => 0x0304 | .startedAt => 0x0305 | .durationSec => 0x0306
  | .volumePercent => 0x0307 | .playbackMode => 0x0308 | .trackTitle => 0x0309
  | .trackArtist => 0x030A | .trackFile => 0x030B | .action => 0x030C | .value => 0x030D
  | .outputTarget => 0x030E
  | .cartridgeStatus => 0x0400 | .cartridgeMounted => 0x0401 | .cartridgeChecksum => 0x0402
  | .metadataVersion => 0x0403 | .albumName => 0x0404 | .albumArtist => 0x0405
  | .albumDescription => 0x0406 | .albumYear => 0x0407 | .albumDuration => 0x0408
  | .albumGenre => 0x0409 | .offset => 0x040A | .count => 0x040B | .returnedCount => 0x040C
  | .totalSize => 0x040D | .binaryData => 0x040E | .mimeType => 0x040F | .albumHasCover => 0x0410
  | .wifiState => 0x0500 | .wifiInternet => 0x0501 | .wifiAutoreconnect => 0x0502
  | .wifiActiveSlot => 0x0503 | .wifiPreferredSlot => 0x0504 | .wifiIp => 0x0505
  | .wifiSsid => 0x0506 | .wifiPassword => 0x0507 | .wifiSlot => 0x0508 | .wifiRssi => 0x0509
  | .wifiChannel => 0x050A | .wifiAuthmode => 0x050B
  | .lastfmHasAuthUrl => 0x0600 | .lastfmHasToken => 0x0601 | .lastfmHasSession => 0x0602
  | .lastfmBusy => 0x0603 | .lastfmScrobbling => 0x0604 | .lastfmNowPlaying => 0x0605
  | .lastfmPendingCommands => 0x0606 | .lastfmPendingScrobbles => 0x0607
  | .lastfmSuccessful => 0x0608 | .lastfmFailed => 0x0609 | .lastfmAuthUrl => 0x060A
  | .lastfmUsername => 0x060B
  | .historyAlbumCount => 0x0700 | .historyTrackCount => 0x0701 | .historyPlayCount => 0x0702
  | .historyFirstSeen => 0x0703 | .historyLastSeen => 0x0704
  | .btA2dpConnected => 0x0800 | .btBondedCount => 0x0801 | .btAddr => 0x0802
  | .btName => 0x0803 | .btRssi => 0x0804 | .btCod => 0x0805 | .btScanRunning => 0x0806
  | .wifiSlotConfigured => 0x0901 | .wifiSlotPreferred => 0x0902 | .wifiSlotActive => 0x0903
  | .hidButtonBitmap => 0x0A00 | .hidAdcRaw => 0x0A01 | .hidLedR => 0x0A02 | .hidLedG => 0x0A03
  | .hidLedB => 0x0A04 | .hidLedBrightness => 0x0A05 | .hidLedOff => 0x0A06
  | .scriptState => 0x0B00 | .scriptName => 0x0B01 | .scriptResolvedPath => 0x0B02
  | .scriptMessage => 0x0B03 | .scriptOutput => 0x0B04 | .scriptRunId => 0x0B05
  | .scriptExitCode => 0x0B06 | .scriptKind => 0x0B07 | .scriptSize => 0x0B08
  | .scriptArgs => 0x0B09

/-! ## Integers and C strings -/

def u16Bytes (v : UInt16) : Bytes := leBytes 2 v.toNat
def u32Bytes (v : UInt32) : Bytes := leBytes 4 v.toNat

@[simp] theorem length_u16Bytes (v : UInt16) : (u16Bytes v).length = 2 := length_leBytes 2 _

@[simp] theorem length_u32Bytes (v : UInt32) : (u32Bytes v).length = 4 := length_leBytes 4 _

/-- `companion_api_read_u16`. -/
def readU16 (data : Bytes) : UInt16 := UInt16.ofNat (leNat (data.take 2))

/-- `companion_api_read_u32`. -/
def readU32 (data : Bytes) : UInt32 := UInt32.ofNat (leNat (data.take 4))

/-- The bytes of a string literal of the source. -/
def ascii (s : String) : Bytes := s.toList.map fun c => UInt8.ofNat c.toNat

/-- The C string in a buffer: the bytes before the first NUL. -/
def cString (buffer : Bytes) : Bytes := buffer.takeWhile (· != 0)

/-! ## Writer -/

structure TlvEntry where
  type : TlvType
  value : Bytes
deriving DecidableEq, Repr

def TlvEntry.size (t : TlvEntry) : Nat := tlvHeaderLen + t.value.length

def TlvEntry.encode (t : TlvEntry) : Bytes :=
  u16Bytes t.type.code ++ leBytes 2 t.value.length ++ t.value

/-- `companion_api_writer_t`: the TLVs appended so far. -/
abbrev Writer := List TlvEntry

def Writer.len (w : Writer) : Nat := (w.map TlvEntry.size).sum

def writerCapacity : Nat := frameMaxLen - headerLen

/-- `companion_api_append_tlv`: the writer after it, and whether it appended. -/
def tryAppend (w : Writer) (type : TlvType) (value : Bytes) : Option Writer :=
  if Writer.len w + tlvHeaderLen + value.length > writerCapacity then none
  else some (w ++ [⟨type, value⟩])

/-- An append whose result the caller ignores. -/
def append (w : Writer) (type : TlvType) (value : Bytes) : Writer :=
  (tryAppend w type value).getD w

def boolBytes (v : Bool) : Bytes := [if v then 1 else 0]

/-- The value `companion_api_append_string` appends: at most 65535 bytes of it. -/
def stringBytes (v : Bytes) : Bytes := v.take 65535

def appendBool (w : Writer) (type : TlvType) (v : Bool) : Writer := append w type (boolBytes v)
def appendU8 (w : Writer) (type : TlvType) (v : UInt8) : Writer := append w type [v]
def appendU16 (w : Writer) (type : TlvType) (v : UInt16) : Writer := append w type (u16Bytes v)
def appendU32 (w : Writer) (type : TlvType) (v : UInt32) : Writer := append w type (u32Bytes v)
def appendString (w : Writer) (type : TlvType) (v : Bytes) : Writer :=
  append w type (stringBytes v)

/-- The entry of a page: all its TLVs, or the writer rolled back to `before`. -/
def appendEntry (w : Writer) (entry : List (TlvType × Bytes)) : Option Writer :=
  entry.foldlM (fun w (type, value) => tryAppend w type value) w

/-! ## Readers -/

/-- The loop of `companion_api_find_tlv`; every turn consumes a TLV header, so
the payload's length bounds the turns. -/
def findTlvFrom (type : UInt16) : Nat → Bytes → Option Bytes
  | 0, _ => none
  | fuel + 1, payload =>
    if payload.length < tlvHeaderLen then none
    else
      let tlvLen := (readU16 (payload.drop 2)).toNat
      let rest := payload.drop tlvHeaderLen
      if rest.length < tlvLen then none
      else if readU16 payload = type then some (rest.take tlvLen)
      else findTlvFrom type fuel (rest.drop tlvLen)

def findTlv (payload : Bytes) (type : TlvType) : Option Bytes :=
  findTlvFrom type.code payload.length payload

def tlvU8 (payload : Bytes) (type : TlvType) : Option UInt8 :=
  match findTlv payload type with
  | some [v] => some v
  | _ => none

def tlvU32 (payload : Bytes) (type : TlvType) : Option UInt32 :=
  match findTlv payload type with
  | some value => if value.length = 4 then some (readU32 value) else none
  | none => none

/-- `companion_api_tlv_string` into a buffer of `bufferLen` bytes. -/
def tlvString (payload : Bytes) (type : TlvType) (bufferLen : Nat) : Option Bytes :=
  (findTlv payload type).map fun value => cString (value.take (bufferLen - 1))

end Jukeboy.CompanionApi.Tlv
