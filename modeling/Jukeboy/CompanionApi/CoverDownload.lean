import Jukeboy.CompanionApi.TlvRoundTrip

/-! # Downloading the cover

`library_cover` of `tools/companion.py` asks `companion_api_handle_library_cover` for one
piece of the file after the other. -/
namespace Jukeboy.CompanionApi.CoverDownload

open Jukeboy.Base Jukeboy.Base.Utf8 Jukeboy.Base.LittleEndian
open Jukeboy.CompanionApi.Tlv Jukeboy.CompanionApi.Protocol
open Jukeboy.CompanionApi.ServiceHandlers Jukeboy.CompanionApi.BleClient
open Jukeboy.CompanionApi.TlvRoundTrip

/-! ## A page -/

/-- The result of `decode_cover_page`. -/
structure CoverPage where
  opcode : String
  requestId : UInt32
  offset : UInt32 := 0
  returnedCount : UInt32 := 0
  totalSize : UInt32 := 0
  mimeType : Text := []
  data : Bytes := []
deriving DecidableEq

/-- One turn of the loop of `decode_cover_page`. -/
def CoverPage.read (p : CoverPage) (tlv : RawTlv) : Option CoverPage :=
  if tlv.1 = TlvType.offset.code then
    (tlvValueU32 tlv.2).map fun v => { p with offset := v }
  else if tlv.1 = TlvType.returnedCount.code then
    (tlvValueU32 tlv.2).map fun v => { p with returnedCount := v }
  else if tlv.1 = TlvType.totalSize.code then
    (tlvValueU32 tlv.2).map fun v => { p with totalSize := v }
  else if tlv.1 = TlvType.mimeType.code then some { p with mimeType := tlvValueString tlv.2 }
  else if tlv.1 = TlvType.binaryData.code then some { p with data := tlv.2 }
  else some p

/-- `decode_cover_page`. -/
def decodeCoverPage (frame : ClientFrame) : Option CoverPage :=
  (frame.tlvs.getD []).foldlM CoverPage.read
    { opcode := opcodeName frame.opcode, requestId := frame.requestId }

/-- `tlv_u32`; `none` is the error of `struct.pack`. -/
def packU32 (type : TlvType) (value : Nat) : Option Bytes :=
  if value < 2 ^ 32 then some (TlvEntry.encode ⟨type, leBytes 4 value⟩) else none

/-- What the device answers to a request for a piece of the cover. -/
def coverReply (sv : Services) (requestId : UInt32) (payload : Bytes) : Option Frame :=
  match (handleLibraryCover sv payload).body with
  | .ok w => some ⟨.response, Opcode.libraryCover.code, requestId, .tlvs w⟩
  | _ => none

/-- `library_cover_page`; `none` is an exception. -/
def libraryCoverPage (sv : Services) (requestId : UInt32) (offset count : Nat) :
    Option CoverPage := do
  let offsetTlv ← packU32 .offset offset
  let countTlv ← packU32 .count count
  let reply ← coverReply sv requestId (offsetTlv ++ countTlv)
  let frame ← decodeFrame reply.encode
  decodeCoverPage frame

/-! ## The loop -/

/-- The locals of `library_cover`. -/
structure Loop where
  offset : Nat := 0
  totalSize : Option Nat := none
  mimeType : Text := []
  data : Bytes := []
deriving DecidableEq

/-- What `library_cover` returns. -/
structure Cover where
  mimeType : Text
  totalSize : Nat
  data : Bytes
deriving DecidableEq, Repr

/-- The lines behind the loop. -/
def Loop.cover (l : Loop) : Cover :=
  let finalTotal := l.totalSize.getD l.data.length
  { mimeType := l.mimeType, totalSize := finalTotal, data := l.data.take finalTotal }

inductive Turn where
  | again (l : Loop)
  | stop (l : Loop)
  | raised
deriving DecidableEq

/-- The body of the loop, behind the request. -/
def Loop.turn (l : Loop) (page : CoverPage) : Turn :=
  let pageOffset := page.offset.toNat
  let returnedCount := page.returnedCount.toNat
  let totalSize := l.totalSize.getD page.totalSize.toNat
  let mimeType := if l.mimeType = [] then page.mimeType else l.mimeType
  if pageOffset < l.data.length then .raised
  else
    let data := l.data ++ List.replicate (pageOffset - l.data.length) 0 ++ page.data
    let l := { l with totalSize := some totalSize, mimeType, data }
    if returnedCount = 0 then .stop l
    else
      let offset := pageOffset + returnedCount
      if offset ≥ totalSize then .stop { l with offset } else .again { l with offset }

/-- How a download stands after some requests. -/
inductive Download where
  | returned (cover : Cover)
  | raised
  | unfinished (l : Loop)
deriving DecidableEq

/-- The services and the request id at the `n`-th request. -/
abbrev Exchanges := Nat → Services × UInt32

/-- `library_cover` from the `n`-th request on, for at most `fuel` requests. -/
def libraryCoverFrom (exchanges : Exchanges) (chunkSize : Nat) : Nat → Nat → Loop → Download
  | 0, _, l => .unfinished l
  | fuel + 1, n, l =>
    match libraryCoverPage (exchanges n).1 (exchanges n).2 l.offset chunkSize with
    | none => .raised
    | some page =>
      match l.turn page with
      | .raised => .raised
      | .stop l => .returned l.cover
      | .again l => libraryCoverFrom exchanges chunkSize fuel (n + 1) l

/-- `library_cover`, for at most `fuel` requests. -/
def libraryCover (exchanges : Exchanges) (chunkSize fuel : Nat) : Download :=
  libraryCoverFrom exchanges chunkSize fuel 0 {}

/-! ## The device's answer -/

/-- The device can read this file from its start to its end, a piece at a time. -/
structure Serves (sv : Services) (content : Bytes) : Prop where
  isMounted : sv.cartridge.isMounted = true
  path : (resolveCartridgePath sv coverFilename).isSome = true
  opens : sv.cartridge.cover.opens = true
  seeksEnd : sv.cartridge.cover.seeksEnd = true
  tell : sv.cartridge.cover.tell = some content.length
  seeksTo : sv.cartridge.cover.seeksTo = true
  content : sv.cartridge.cover.content = content
  /-- `fread` returns a byte at least. -/
  readLimit : 1 ≤ sv.cartridge.cover.readLimit
  /-- A stream with an error returned everything it was asked for. -/
  ferror : sv.cartridge.cover.ferror = true → coverChunkMaxLen ≤ sv.cartridge.cover.readLimit

/-- How many bytes the answer holds. -/
def pieceLen (sv : Services) (content : Bytes) (offset count : Nat) : Nat :=
  min (min (content.length - offset) (min count coverChunkMaxLen)) sv.cartridge.cover.readLimit

def piece (sv : Services) (content : Bytes) (offset count : Nat) : Bytes :=
  (content.drop offset).take (pieceLen sv content offset count)

variable {sv : Services} {content : Bytes} {offset count : Nat}

theorem length_piece : (piece sv content offset count).length = pieceLen sv content offset count := by
  rw [piece, List.length_take, List.length_drop]
  unfold pieceLen
  omega

theorem pieceLen_pos (h : Serves sv content) (hoffset : offset < content.length)
    (hcount : 1 ≤ count) : 0 < pieceLen sv content offset count := by
  have hlimit := h.readLimit
  unfold pieceLen coverChunkMaxLen
  omega

theorem pieceLen_le : pieceLen sv content offset count ≤ coverChunkMaxLen := by
  unfold pieceLen
  omega

/-- A request's two TLVs, as the firmware finds them. -/
theorem tlvU32_pageRequest (hoffset : offset < 2 ^ 32) (hcount : count < 2 ^ 32) :
    let payload := TlvEntry.encode ⟨.offset, leBytes 4 offset⟩ ++ TlvEntry.encode ⟨.count, leBytes 4 count⟩
    tlvU32 payload .offset = some (.ofNat offset) ∧ tlvU32 payload .count = some (.ofNat count) := by
  intro payload
  have hvalue (v : Nat) (hv : v < 2 ^ 32) : readU32 (leBytes 4 v) = .ofNat v := by
    have hread := leNat_take_leBytes [] (show v < 256 ^ 4 by omega)
    rw [List.append_nil] at hread
    rw [readU32, hread]
  have hlen : payload.length = 14 + 1 + 1 := by
    simp [payload, TlvEntry.encode]
  have hoffsetTlv : findTlv payload .offset = some (leBytes 4 offset) := by
    rw [findTlv, hlen, findTlvFrom_encode (by simp), if_pos rfl]
  have hcountTlv : findTlv payload .count = some (leBytes 4 count) := by
    have hother : TlvType.offset.code ≠ TlvType.count.code := by decide
    rw [findTlv, hlen, findTlvFrom_encode (by simp), if_neg hother]
    rw [← List.append_nil (TlvEntry.encode ⟨.count, leBytes 4 count⟩), findTlvFrom_encode (by simp),
      if_pos rfl]
  simp only [tlvU32, hoffsetTlv, hcountTlv, length_leBytes, if_true, hvalue _ hoffset,
    hvalue _ hcount, and_self]

/-- The TLVs of an answer. -/
def pageEntries (sv : Services) (content : Bytes) (offset count : Nat) : List (TlvType × Bytes) :=
  [(.offset, u32Bytes (.ofNat offset)), (.totalSize, u32Bytes (.ofNat content.length)),
    (.returnedCount, u32Bytes (.ofNat (pieceLen sv content offset count))),
    (.mimeType, ascii "image/png")] ++
  if pieceLen sv content offset count > 0 then [(.binaryData, piece sv content offset count)]
  else []

theorem handleLibraryCover_eq (h : Serves sv content) (hlen : content.length < 2 ^ 31)
    (hoffset : offset ≤ content.length) (hcount : count < 2 ^ 32) {payload : Bytes}
    (hpayload : tlvU32 payload .offset = some (.ofNat offset) ∧
      tlvU32 payload .count = some (.ofNat count)) :
    (handleLibraryCover sv payload).body =
      .ok (appendAll [] (pageEntries sv content offset count)) := by
  have hoffset32 : (UInt32.ofNat offset).toNat = offset := by
    rw [UInt32.toNat_ofNat', Nat.mod_eq_of_lt (by omega)]
  have hcount32 : (UInt32.ofNat count).toNat = count := by
    rw [UInt32.toNat_ofNat', Nat.mod_eq_of_lt hcount]
  have hread : sv.cartridge.cover.read offset
      (min (content.length - offset) (min count coverChunkMaxLen)) =
      piece sv content offset count := by
    rw [FileView.read, h.content]
    rfl
  have hnofail : ¬ (min (content.length - offset) (min count coverChunkMaxLen) > 0 ∧
      pieceLen sv content offset count ≠
        min (content.length - offset) (min count coverChunkMaxLen) ∧
      sv.cartridge.cover.ferror = true) := by
    rintro ⟨-, hshort, hferror⟩
    have hlimit := h.ferror hferror
    unfold pieceLen at hshort
    omega
  have hpath : ¬ (resolveCartridgePath sv coverFilename).isNone = true := by
    rw [Option.isNone_iff_eq_none]
    intro hnone
    have hsome := h.path
    rw [hnone] at hsome
    cases hsome
  unfold handleLibraryCover
  dsimp only
  rw [if_neg (not_not.mpr h.isMounted), if_neg hpath, if_neg (not_not.mpr h.opens),
    if_neg (not_not.mpr h.seeksEnd), h.tell]
  dsimp only
  rw [pageOffset, hpayload.1, hpayload.2, Option.getD_some, Option.getD_some, hoffset32, hcount32,
    Nat.min_eq_left hoffset, hread, length_piece, if_neg (by omega),
    if_neg (not_not.mpr h.seeksTo), if_neg hnofail]
  change AnswerBody.ok _ = _
  unfold pageEntries
  rw [← appendAll_append]
  split
  · exact congrArg AnswerBody.ok (append_eq _ _ _)
  · exact congrArg AnswerBody.ok (appendAll_nil _).symm

/-- The type of every cover. -/
def coverMime : Text := "image/png".toList

theorem coverMime_ne : coverMime ≠ [] := by decide +kernel

/-- The page that the client takes the answer for. -/
def pageOf (sv : Services) (content : Bytes) (requestId : UInt32) (offset count : Nat) :
    CoverPage where
  opcode := "library_cover"
  requestId
  offset := .ofNat offset
  returnedCount := .ofNat (pieceLen sv content offset count)
  totalSize := .ofNat content.length
  mimeType := coverMime
  data := piece sv content offset count

theorem decode_pageEntries (requestId : UInt32) :
    ((pageEntries sv content offset count).map toRaw).foldlM CoverPage.read
      { opcode := opcodeName Opcode.libraryCover.code, requestId } =
      some (pageOf sv content requestId offset count) := by
  have hname : opcodeName Opcode.libraryCover.code = "library_cover" := by decide
  have hmime : tlvValueString (ascii "image/png") = coverMime := by decide +kernel
  by_cases hpos : pieceLen sv content offset count > 0
  · simp [pageEntries, toRaw, CoverPage.read, TlvType.code, pageOf, hname, hmime, hpos]
  · have hnil : piece sv content offset count = [] := by
      rw [← List.length_eq_zero_iff, length_piece]
      omega
    simp [pageEntries, toRaw, CoverPage.read, TlvType.code, pageOf, hname, hmime, hpos, hnil]

theorem size_pageEntries : size (pageEntries sv content offset count) ≤ writerCapacity := by
  have hle : pieceLen sv content offset count ≤ coverChunkMaxLen := pieceLen_le
  have hmime : (ascii "image/png").length = 9 := rfl
  unfold coverChunkMaxLen at hle
  unfold pageEntries
  rw [size_append]
  split <;>
  · simp only [size_cons, size_nil, length_u32Bytes, length_piece, hmime, tlvHeaderLen,
      writerCapacity, frameMaxLen, headerLen]
    omega

/-- **One request** gives the client the piece of the file behind its offset. -/
theorem libraryCoverPage_eq (h : Serves sv content) (hlen : content.length < 2 ^ 31)
    (hoffset : offset ≤ content.length) (hcount : count < 2 ^ 32) (requestId : UInt32) :
    libraryCoverPage sv requestId offset count =
      some (pageOf sv content requestId offset count) := by
  have hpayload := tlvU32_pageRequest (show offset < 2 ^ 32 by omega) hcount
  have hroom : size (pageEntries sv content offset count) ≤ writerCapacity := size_pageEntries
  obtain ⟨payload, hframe⟩ := decodeFrame_reply requestId hroom
    (show Opcode.libraryCover.code ≠ Opcode.ping.code by decide)
  have hfits : appendAll [] (pageEntries sv content offset count) =
      (pageEntries sv content offset count).map toTlv := by
    rw [appendAll_fits, List.nil_append]
    rw [Writer.len, List.map_nil, List.sum_nil, Nat.zero_add]
    exact hroom
  rw [libraryCoverPage, packU32, if_pos (by omega), packU32, if_pos hcount]
  simp only [Option.bind_eq_bind, Option.bind_some, coverReply,
    handleLibraryCover_eq h hlen hoffset hcount hpayload, hfits, hframe, decodeCoverPage,
    Option.getD_some, decode_pageEntries]

/-! ## The whole download -/

/-- What is true before each request. -/
structure Inv (content : Bytes) (l : Loop) : Prop where
  le : l.offset ≤ content.length
  data : l.data = content.take l.offset
  totalSize : l.totalSize = none ∨ l.totalSize = some content.length
  mimeType : l.mimeType = [] ∨ l.mimeType = coverMime

/-- The cover that is in this file. -/
def coverOf (content : Bytes) : Cover where
  mimeType := coverMime
  totalSize := content.length
  data := content

/-- The locals behind a page with `k` bytes. -/
def Loop.grown (l : Loop) (content : Bytes) (k : Nat) : Loop :=
  { l with
    totalSize := some content.length, mimeType := coverMime
    data := content.take (l.offset + k) }

theorem turn_eq {l : Loop} (hlen : content.length < 2 ^ 31) (hinv : Inv content l)
    (requestId : UInt32) :
    let k := pieceLen sv content l.offset count
    l.turn (pageOf sv content requestId l.offset count) =
      if k = 0 then .stop (l.grown content k)
      else if l.offset + k ≥ content.length then
        .stop { l.grown content k with offset := l.offset + k }
      else .again { l.grown content k with offset := l.offset + k } := by
  intro k
  have hk : k ≤ coverChunkMaxLen := pieceLen_le
  unfold coverChunkMaxLen at hk
  have hle := hinv.le
  have hoffset32 : (UInt32.ofNat l.offset).toNat = l.offset := by
    rw [UInt32.toNat_ofNat', Nat.mod_eq_of_lt (by omega)]
  have hk32 : (UInt32.ofNat k).toNat = k := by
    rw [UInt32.toNat_ofNat', Nat.mod_eq_of_lt (by omega)]
  have htotal : l.totalSize.getD (UInt32.ofNat content.length).toNat = content.length := by
    rcases hinv.totalSize with hnone | hsome
    · rw [hnone, Option.getD_none, UInt32.toNat_ofNat', Nat.mod_eq_of_lt (by omega)]
    · rw [hsome, Option.getD_some]
  have hmime : (if l.mimeType = [] then coverMime else l.mimeType) =
      coverMime := by
    rcases hinv.mimeType with hnil | hpng
    · rw [if_pos hnil]
    · rw [hpng, if_neg coverMime_ne]
  have hdatalen : l.data.length = l.offset := by
    rw [hinv.data, List.length_take, Nat.min_eq_left hle]
  have hdata : l.data ++ List.replicate (l.offset - l.offset) 0 ++
      piece sv content l.offset count = content.take (l.offset + k) := by
    rw [Nat.sub_self, List.replicate_zero, List.append_nil, hinv.data, List.take_add]
    rfl
  simp only [Loop.turn, pageOf, hoffset32, htotal, hmime, hdatalen, hdata]
  rw [if_neg (Nat.lt_irrefl _), show pieceLen sv content l.offset count = k from rfl, hk32]
  rfl

/-- **One turn** either goes on behind the piece it got, or has the whole file. -/
theorem turn_page {l : Loop} (h : Serves sv content) (hlen : content.length < 2 ^ 31)
    (hcount : 1 ≤ count) (hinv : Inv content l) (requestId : UInt32) :
    (∃ l', l.turn (pageOf sv content requestId l.offset count) = .again l' ∧ Inv content l' ∧
        l.offset < l'.offset) ∨
      ∃ l', l.turn (pageOf sv content requestId l.offset count) = .stop l' ∧
        l'.cover = coverOf content := by
  have hturn : l.turn (pageOf sv content requestId l.offset count) = _ :=
    turn_eq hlen hinv requestId
  dsimp only at hturn
  have hle := hinv.le
  have hwhole {k : Nat} (hk : content.length ≤ l.offset + k) :
      (l.grown content k).cover = coverOf content := by
    rw [Loop.cover, coverOf, Loop.grown, Option.getD_some, List.take_of_length_le hk,
      List.take_length]
  by_cases hnone : pieceLen sv content l.offset count = 0
  · rw [if_pos hnone] at hturn
    have hend : content.length ≤ l.offset := by
      by_contra hbefore
      have hpos := pieceLen_pos h (Nat.lt_of_not_le hbefore) hcount
      omega
    exact .inr ⟨_, hturn, hwhole (by omega)⟩
  · rw [if_neg hnone] at hturn
    by_cases hlast : l.offset + pieceLen sv content l.offset count ≥ content.length
    · rw [if_pos hlast] at hturn
      exact .inr ⟨_, hturn, hwhole hlast⟩
    · rw [if_neg hlast] at hturn
      have hinv' : Inv content { l.grown content (pieceLen sv content l.offset count) with
          offset := l.offset + pieceLen sv content l.offset count } :=
        ⟨by dsimp only; omega, rfl, .inr rfl, .inr rfl⟩
      exact .inl ⟨_, hturn, hinv', by dsimp only; omega⟩

theorem libraryCoverFrom_eq {exchanges : Exchanges} {chunkSize : Nat}
    (h : ∀ n, Serves (exchanges n).1 content) (hlen : content.length < 2 ^ 31)
    (hpos : 1 ≤ chunkSize) (hsize : chunkSize < 2 ^ 32) {fuel n : Nat} {l : Loop}
    (hinv : Inv content l) (hfuel : content.length - l.offset < fuel) :
    libraryCoverFrom exchanges chunkSize fuel n l = .returned (coverOf content) := by
  induction fuel generalizing n l with
  | zero => omega
  | succ fuel ih =>
    have hpage := libraryCoverPage_eq (h n) hlen hinv.le hsize (exchanges n).2
    rw [libraryCoverFrom, hpage]
    dsimp only
    obtain ⟨l', hturn, hinv', hless⟩ | ⟨l', hturn, hcover⟩ :=
      turn_page (h n) hlen hpos hinv (exchanges n).2
    · have hle := hinv'.le
      rw [hturn]
      exact ih hinv' (by omega)
    · rw [hturn]
      dsimp only
      rw [hcover]

/-- **A download returns the file**, after at most one request for each of its bytes and
one more. -/
theorem cover_download {exchanges : Exchanges} {chunkSize fuel : Nat}
    (h : ∀ n, Serves (exchanges n).1 content) (hlen : content.length < 2 ^ 31)
    (hpos : 1 ≤ chunkSize) (hsize : chunkSize < 2 ^ 32) (hfuel : content.length < fuel) :
    libraryCover exchanges chunkSize fuel = .returned (coverOf content) :=
  libraryCoverFrom_eq h hlen hpos hsize ⟨Nat.zero_le _, rfl, .inl rfl, .inl rfl⟩ hfuel

/-! ## Downloads of three bytes -/

/-- A mounted cartridge with this cover. -/
def coverServices (content : Bytes) (readLimit : Nat) (ferror : Bool) : Services :=
  { (default : Services) with
    cartridge := { (default : Cartridge) with
      isMounted := true, mountPoint := ascii "/sdcard"
      cover :=
        { opens := true, seeksEnd := true, tell := some content.length, seeksTo := true, content
          readLimit, ferror } } }

theorem serves_coverServices {content : Bytes} {readLimit : Nat} (h : 1 ≤ readLimit) :
    Serves (coverServices content readLimit false) content where
  isMounted := rfl
  path := rfl
  opens := rfl
  seeksEnd := rfl
  tell := rfl
  seeksTo := rfl
  content := rfl
  readLimit := h
  ferror := fun hferror => by cases hferror

/-- Every read gives one or two bytes. -/
theorem cover_download_short_reads :
    libraryCover (fun n => (coverServices [1, 2, 3] (1 + n % 2) false, 1)) 1024 4 =
      .returned (coverOf [1, 2, 3]) :=
  cover_download (fun _ => serves_coverServices (by omega)) (by decide) (by decide) (by decide)
    (by decide)

/-- A first request that fails ends the download. -/
theorem libraryCover_raised (exchanges : Exchanges) {chunkSize : Nat}
    (h : libraryCoverPage (exchanges 0).1 (exchanges 0).2 0 chunkSize = none) (fuel : Nat)
    (cover : Cover) : libraryCover exchanges chunkSize fuel ≠ .returned cover := by
  cases fuel with
  | zero => exact fun heq => by cases heq
  | succ fuel =>
    rw [libraryCover, libraryCoverFrom, h]
    exact fun heq => by cases heq

/-- Requests for a cover of three bytes, each answered alike. -/
def threeBytes (readLimit : Nat) (ferror : Bool) : Exchanges := fun _ =>
  (coverServices [1, 2, 3] readLimit ferror, 1)

/-- Neither a chunk size of 2^32 nor a short read with an error gives the file. -/
theorem cover_download_raised :
    (∀ fuel, libraryCover (threeBytes 3 false) (2 ^ 32) fuel ≠ .returned (coverOf [1, 2, 3])) ∧
      (coverServices [1, 2, 3] 1 true).cartridge.cover.read 0 3 = [1] ∧
      ∀ fuel, libraryCover (threeBytes 1 true) 1024 fuel ≠ .returned (coverOf [1, 2, 3]) := by
  have hpack : libraryCoverPage (threeBytes 3 false 0).1 (threeBytes 3 false 0).2 0 (2 ^ 32) =
      none := by decide +kernel
  have hferror : libraryCoverPage (threeBytes 1 true 0).1 (threeBytes 1 true 0).2 0 1024 =
      none := by decide +kernel
  exact ⟨fun fuel => libraryCover_raised _ hpack fuel _, by decide,
    fun fuel => libraryCover_raised _ hferror fuel _⟩

end Jukeboy.CompanionApi.CoverDownload
