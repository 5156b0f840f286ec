import Mathlib.Data.List.Basic
import Mathlib.Tactic.Common
import Jukeboy.Base.LittleEndian

/-! # The .jbm album metadata

The header and the track entries of an album's metadata as the bytes they are,
with the fields other services read, and what a cartridge offers of them. -/
namespace Jukeboy.Formats.Jbm

open Jukeboy.Base.LittleEndian

abbrev maxTrackFiles : Nat := 999

abbrev headerBytes : Nat := 1652

abbrev trackEntryBytes : Nat := 392

/-- The first `n` bytes of a buffer, zeros where it ends early. -/
def firstBytes (n : Nat) (bytes : List UInt8) : List UInt8 :=
  (bytes ++ List.replicate n 0).take n

theorem length_firstBytes (n : Nat) (bytes : List UInt8) : (firstBytes n bytes).length = n := by
  simp [firstBytes]

theorem firstBytes_append {n : Nat} {bytes : List UInt8} (h : bytes.length = n)
    (rest : List UInt8) : firstBytes n (bytes ++ rest) = bytes := by
  rw [firstBytes, List.append_assoc, List.take_left' h]

/-- The little-endian 32-bit field at an offset. -/
def u32At (bytes : List UInt8) (offset : Nat) : UInt32 :=
  UInt32.ofNat (leNat ((bytes.drop offset).take 4))

/-- `jukeboy_jbm_header_t`. -/
structure JbmHeader where
  bytes : List UInt8
  length_bytes : bytes.length = headerBytes
deriving DecidableEq, Repr

namespace JbmHeader

def ofBytes (bytes : List UInt8) : JbmHeader :=
  ⟨firstBytes headerBytes bytes, length_firstBytes headerBytes bytes⟩

def zero : JbmHeader := ofBytes []

def checksum (h : JbmHeader) : UInt32 := u32At h.bytes 4

def trackCount (h : JbmHeader) : UInt32 := u32At h.bytes 1648

end JbmHeader

/-- `jukeboy_jbm_track_t`. -/
structure JbmTrack where
  bytes : List UInt8
  length_bytes : bytes.length = trackEntryBytes
deriving DecidableEq, Repr

namespace JbmTrack

def ofBytes (bytes : List UInt8) : JbmTrack :=
  ⟨firstBytes trackEntryBytes bytes, length_firstBytes trackEntryBytes bytes⟩

def zero : JbmTrack := ofBytes []

def fileNum (t : JbmTrack) : UInt32 := u32At t.bytes 388

end JbmTrack

/-- The metadata of a cartridge as it passed the cartridge service's validation:
the header counts the track entries that follow it, at most 999. -/
structure Metadata where
  header : JbmHeader
  tracks : List JbmTrack
  trackCount_eq : header.trackCount.toNat = tracks.length
  tracks_le : tracks.length ≤ maxTrackFiles

/-- What the cartridge service answers while an event is handled. -/
structure Cartridge where
  mounted : Bool
  metadata : Option Metadata

namespace Cartridge

def isMounted (cart : Cartridge) : Bool := cart.mounted

def getMetadataHeader (cart : Cartridge) : Option JbmHeader := cart.metadata.map Metadata.header

def getMetadataTrackCount (cart : Cartridge) : Nat :=
  match cart.metadata with
  | none => 0
  | some metadata => metadata.header.trackCount.toNat

def getMetadataTrack (cart : Cartridge) (index : Nat) : Option JbmTrack :=
  match cart.metadata with
  | none => none
  | some metadata =>
    if metadata.header.trackCount.toNat ≤ index then none else metadata.tracks[index]?

/-- A track entry exists exactly below the track count. -/
theorem getMetadataTrack_isSome {cart : Cartridge} {index : Nat} :
    (cart.getMetadataTrack index).isSome = true ↔ index < cart.getMetadataTrackCount := by
  unfold getMetadataTrack getMetadataTrackCount
  cases cart.metadata with
  | none => simp
  | some metadata =>
    dsimp only
    by_cases h : metadata.header.trackCount.toNat ≤ index
    · simp [h, Nat.not_lt.mpr h]
    · have hlt : index < metadata.tracks.length := by
        rw [← metadata.trackCount_eq]
        exact Nat.not_le.mp h
      simp [h, Nat.not_le.mp h, hlt]

theorem getMetadataTrackCount_le (cart : Cartridge) :
    cart.getMetadataTrackCount ≤ maxTrackFiles := by
  unfold getMetadataTrackCount
  cases cart.metadata with
  | none => exact Nat.zero_le _
  | some metadata => exact metadata.trackCount_eq.trans_le metadata.tracks_le

end Cartridge

end Jukeboy.Formats.Jbm
