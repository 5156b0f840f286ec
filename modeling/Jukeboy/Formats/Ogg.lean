import Jukeboy.Base.ByteFile
import Jukeboy.Base.Lacing

/-! # Ogg packets in `make_album.py`

`iter_ogg_packets` walks the pages of a file and the lacing values of each page; it
yields the packets it finds and may raise `ValueError` at any point. A page is what the
walk reads of it, and all of its header that the walk does not look at. -/
namespace Jukeboy.Formats.Ogg
open Jukeboy.Base.ByteFile Jukeboy.Base.Lacing

abbrev Bytes := List UInt8

/-- `b"OggS"`. -/
def capturePattern : Bytes := [79, 103, 103, 83]

/-! ## The walk -/

/-- The body of the outer loop up to the inner one: the segment table, the page body and
its end. -/
def pageAt (oggData : Bytes) (offset : Nat) : Except String (Bytes × Bytes × Nat) :=
  if slice oggData offset 4 ≠ capturePattern then
    .error s!"invalid Ogg capture pattern at byte {offset}"
  else if offset + 27 > oggData.length then
    .error "truncated Ogg page header"
  else
    let pageSegments := (oggData.getD (offset + 26) 0).toNat
    let segmentTableOffset := offset + 27
    let segmentTableEnd := segmentTableOffset + pageSegments
    if segmentTableEnd > oggData.length then
      .error "truncated Ogg segment table"
    else
      let segmentTable := slice oggData segmentTableOffset pageSegments
      let bodyLen := (segmentTable.map UInt8.toNat).sum
      let bodyEnd := segmentTableEnd + bodyLen
      if bodyEnd > oggData.length then
        .error "truncated Ogg page body"
      else
        .ok (segmentTable, slice oggData segmentTableEnd bodyLen, bodyEnd)

/-- The inner loop: the packets it yields and what it leaves in `packet_parts`. -/
def walkSegments (body : Bytes) : Nat → Bytes → List Bytes → List Bytes × List Bytes
  | _, [], packetParts => ([], packetParts)
  | cursor, segmentLen :: segmentTable, packetParts =>
    let packetParts := packetParts ++ [slice body cursor segmentLen.toNat]
    let cursor := cursor + segmentLen.toNat
    if segmentLen < 255 then
      let (packets, rest) := walkSegments body cursor segmentTable []
      (packetParts.flatten :: packets, rest)
    else walkSegments body cursor segmentTable packetParts

theorem pageAt_lt {oggData table body : Bytes} {offset bodyEnd : Nat}
    (h : pageAt oggData offset = .ok (table, body, bodyEnd)) :
    offset < bodyEnd ∧ bodyEnd ≤ oggData.length := by
  unfold pageAt at h
  dsimp only at h
  split_ifs at h
  cases h
  omega

/-- The outer loop from an offset on: what it yields, and the error it raises. -/
def iterFrom (oggData : Bytes) (offset : Nat) (packetParts : List Bytes) :
    List Bytes × Option String :=
  if offset < oggData.length then
    match _h : pageAt oggData offset with
    | .error message => ([], some message)
    | .ok (segmentTable, body, bodyEnd) =>
      let (packets, packetParts) := walkSegments body 0 segmentTable packetParts
      let (more, err) := iterFrom oggData bodyEnd packetParts
      (packets ++ more, err)
  else if packetParts ≠ [] then ([], some "trailing partial Ogg packet")
  else ([], none)
termination_by oggData.length - offset
decreasing_by
  have := pageAt_lt _h
  omega

def iterOggPackets (oggData : Bytes) : List Bytes × Option String := iterFrom oggData 0 []

/-- `b"OpusHead"` and `b"OpusTags"`. -/
def opusHead : Bytes := [79, 112, 117, 115, 72, 101, 97, 100]

def opusTags : Bytes := [79, 112, 117, 115, 84, 97, 103, 115]

def extractOpusPackets (oggData : Bytes) : Except String (List Bytes) :=
  match iterOggPackets oggData with
  | (_, some message) => .error message
  | (packets, none) =>
    if packets.length < 3 then .error "Ogg Opus stream is missing required packets"
    else if !opusHead.isPrefixOf (packets.getD 0 []) then
      .error "Ogg stream does not start with OpusHead"
    else if !opusTags.isPrefixOf (packets.getD 1 []) then
      .error "Ogg stream is missing OpusTags"
    else
      let audioPackets := (packets.drop 2).filter fun packet => packet ≠ []
      if audioPackets = [] then .error "no Opus audio packets found"
      else .ok audioPackets

/-! ## Pages -/

/-- A page. `header` are the fields between the capture pattern and the number of
segments: version, type, granule position, serial number, sequence number, checksum. -/
structure Page where
  header : Bytes
  segments : Bytes
  body : Bytes
  header_length : header.length = 22
  segments_le : segments.length ≤ 255
  body_length : body.length = (segments.map UInt8.toNat).sum

def Page.encode (p : Page) : Bytes :=
  capturePattern ++ p.header ++ [UInt8.ofNat p.segments.length] ++ p.segments ++ p.body

def stream (pages : List Page) : Bytes := pages.flatMap Page.encode

/-- The lacing values of some pages. -/
def lacingValues (pages : List Page) : List Nat :=
  pages.flatMap fun p => p.segments.map UInt8.toNat

/-- The pages carry the packets: their segment tables, one behind the other, are the
lacing values of the packets, and their bodies the packets. -/
structure LaidOut (packets : List Bytes) (pages : List Page) : Prop where
  segments : lacingValues pages = packets.flatMap fun p => lace 255 p.length
  bodies : pages.flatMap Page.body = packets.flatten

/-- The last segment of the pages ends a packet. -/
def EndsPacket (pages : List Page) : Prop := ∀ value ∈ (lacingValues pages).getLast?, value < 255

theorem Page.length_encode (p : Page) :
    p.encode.length = 27 + p.segments.length + p.body.length := by
  simp only [Page.encode, List.length_append, List.length_singleton, p.header_length]
  rfl

/-! ## One page -/

/-- The walk reads a page in front of anything. -/
theorem pageAt_encode {oggData rest : Bytes} {offset : Nat} {p : Page}
    (h : oggData.drop offset = p.encode ++ rest) (hoffset : offset ≤ oggData.length) :
    pageAt oggData offset = .ok (p.segments, p.body, offset + p.encode.length) ∧
      oggData.drop (offset + p.encode.length) = rest := by
  have hlen : oggData.length = offset + (p.encode.length + rest.length) := by
    have := congrArg List.length h
    rw [List.length_drop, List.length_append] at this
    omega
  rw [p.length_encode] at hlen ⊢
  have hrest : oggData.drop (offset + (27 + p.segments.length + p.body.length)) = rest := by
    rw [← List.drop_drop, h, ← p.length_encode, List.drop_left]
  refine ⟨?_, hrest⟩
  have hhead : (capturePattern ++ p.header).length = 26 := by
    rw [List.length_append, p.header_length]
    rfl
  have hpattern : slice oggData offset 4 = capturePattern := by
    rw [slice, h]
    simp only [Page.encode, List.append_assoc]
    exact List.take_left' rfl
  have hcount : oggData.getD (offset + 26) 0 = UInt8.ofNat p.segments.length := by
    have hat : (oggData.drop offset)[26]? = some (UInt8.ofNat p.segments.length) := by
      rw [h]
      simp only [Page.encode, List.append_assoc]
      rw [← List.append_assoc, List.getElem?_append_right (Nat.le_of_eq hhead), hhead]
      rfl
    rw [List.getElem?_drop] at hat
    rw [List.getD_eq_getElem?_getD, hat]
    rfl
  have htoNat : (UInt8.ofNat p.segments.length).toNat = p.segments.length := by
    have := p.segments_le
    rw [UInt8.toNat_ofNat']
    omega
  have htable : slice oggData (offset + 27) p.segments.length = p.segments := by
    rw [slice, ← List.drop_drop, h]
    simp only [Page.encode, List.append_assoc]
    rw [← List.append_assoc, ← List.append_assoc, List.drop_left' (by rw [List.length_append, hhead]; rfl)]
    exact List.take_left
  have hbody : slice oggData (offset + 27 + p.segments.length) p.body.length = p.body := by
    rw [slice, Nat.add_assoc, ← List.drop_drop, h]
    simp only [Page.encode, List.append_assoc]
    rw [← List.append_assoc, ← List.append_assoc, ← List.append_assoc, List.drop_left'
      (by rw [List.length_append, List.length_append, hhead, List.length_singleton])]
    exact List.take_left
  rw [pageAt, if_neg (not_not.mpr hpattern), if_neg (by omega)]
  dsimp only
  rw [hcount, htoNat, if_neg (by omega), htable, ← p.body_length, if_neg (by omega), hbody,
    ← Nat.add_assoc, ← Nat.add_assoc]

/-- What the walk reads is a page. -/
theorem pageAt_ok {oggData table body : Bytes} {offset bodyEnd : Nat}
    (h : pageAt oggData offset = .ok (table, body, bodyEnd)) :
    ∃ p : Page, p.segments = table ∧ p.body = body ∧
      oggData.drop offset = p.encode ++ oggData.drop bodyEnd ∧
      bodyEnd = offset + p.encode.length := by
  unfold pageAt at h
  dsimp only at h
  split_ifs at h with hpattern hheader htable hbody
  cases h
  have hpattern := not_not.mp hpattern
  generalize hn : oggData.getD (offset + 26) 0 = n at htable hbody ⊢
  generalize hsegments : slice oggData (offset + 27) n.toNat = segments at hbody ⊢
  generalize hsum : (segments.map UInt8.toNat).sum = bodyLen at hbody ⊢
  have hcount : segments.length = n.toNat := hsegments ▸ length_slice (Nat.not_lt.mp htable)
  have hn255 := n.toNat_lt
  have hdrop : oggData.drop (offset + 26) = n :: oggData.drop (offset + 27) := by
    rw [← hn, List.getD_eq_getElem?_getD, List.getElem?_eq_getElem (by omega)]
    exact List.drop_eq_getElem_cons (by omega)
  let p : Page :=
    { header := slice oggData (offset + 4) 22, segments
      body := slice oggData (offset + 27 + n.toNat) bodyLen
      header_length := length_slice (by omega)
      segments_le := by omega
      body_length := (length_slice (Nat.not_lt.mp hbody)).trans hsum.symm }
  refine ⟨p, rfl, rfl, ?_, ?_⟩
  · have hencode : p.encode = capturePattern ++ slice oggData (offset + 4) 22 ++ [n] ++ segments ++
        slice oggData (offset + 27 + n.toNat) bodyLen := by
      rw [Page.encode, hcount, UInt8.ofNat_toNat]
    rw [hencode, drop_eq_slice_append oggData offset 4, hpattern,
      drop_eq_slice_append oggData (offset + 4) 22, hdrop,
      drop_eq_slice_append oggData (offset + 27) n.toNat, hsegments,
      drop_eq_slice_append oggData (offset + 27 + n.toNat) bodyLen]
    simp only [List.append_assoc, List.cons_append, List.nil_append]
  · rw [p.length_encode, hcount, p.body_length, hsum]
    omega

/-! ## All pages -/

theorem walkSegments_eq {body : Bytes} {cursor : Nat} {table : Bytes} {packetParts : List Bytes} :
    walkSegments body cursor table packetParts =
      unlace 255 (table.map UInt8.toNat) (body.drop cursor) packetParts := by
  induction table generalizing cursor packetParts with
  | nil => rfl
  | cons segmentLen table ih =>
    have hlt : segmentLen < 255 ↔ segmentLen.toNat < 255 := UInt8.lt_iff_toNat_lt
    rw [walkSegments, List.map_cons, unlace]
    simp only [ih, hlt, slice, List.drop_drop]

/-- The pages from an offset on are read one after the other. -/
theorem iterFrom_stream {oggData : Bytes} {offset : Nat} {packetParts : List Bytes}
    {pages : List Page} (hoffset : offset ≤ oggData.length) (h : oggData.drop offset = stream pages) :
    iterFrom oggData offset packetParts =
      ((unlace 255 (lacingValues pages) (pages.flatMap Page.body) packetParts).1,
        if (unlace 255 (lacingValues pages) (pages.flatMap Page.body) packetParts).2 = [] then none
        else some "trailing partial Ogg packet") := by
  induction pages generalizing offset packetParts with
  | nil =>
    have hend : ¬ offset < oggData.length := by
      have := congrArg List.length h
      rw [List.length_drop] at this
      exact Nat.not_lt.mpr (Nat.le_of_sub_eq_zero this)
    rw [iterFrom, if_neg hend]
    simp only [lacingValues, List.flatMap_nil, unlace_nil]
    by_cases hparts : packetParts = []
    · rw [if_neg (not_not.mpr hparts), if_pos hparts]
    · rw [if_pos hparts, if_neg hparts]
  | cons p pages ih =>
    obtain ⟨hpage, hrest⟩ := pageAt_encode (h.trans List.flatMap_cons) hoffset
    have hlt := pageAt_lt hpage
    rw [iterFrom, if_pos (by omega)]
    split
    · next herr => cases herr.symm.trans hpage
    · next table body bodyEnd hok =>
      cases hok.symm.trans hpage
      dsimp only
      have hvalues : lacingValues (p :: pages) = p.segments.map UInt8.toNat ++ lacingValues pages :=
        List.flatMap_cons
      rw [walkSegments_eq, List.drop_zero, ih hlt.2 hrest, hvalues, List.flatMap_cons,
        unlace_append p.body_length]

/-- Where the walk raises nothing it has read pages only. -/
theorem iterFrom_pages {oggData : Bytes} {offset : Nat} {packetParts : List Bytes}
    (hoffset : offset ≤ oggData.length) (h : (iterFrom oggData offset packetParts).2 = none) :
    ∃ pages, oggData.drop offset = stream pages := by
  fun_induction iterFrom oggData offset packetParts with
  | case1 => cases h
  | case2 offset packetParts hmore table body bodyEnd hok packets rest hwalk more err hrest ih =>
    obtain ⟨p, -, -, hpage, -⟩ := pageAt_ok hok
    have herr : (iterFrom oggData bodyEnd rest).2 = none := by rw [hrest]; exact h
    obtain ⟨pages, hpages⟩ := ih (pageAt_lt hok).2 herr
    exact ⟨p :: pages, by rw [hpage, hpages]; rfl⟩
  | case3 => cases h
  | case4 offset packetParts hend => exact ⟨[], List.drop_eq_nil_of_le (Nat.not_lt.mp hend)⟩

theorem endsPacket_iff {pages : List Page} :
    (unlace 255 (lacingValues pages) (pages.flatMap Page.body) []).2 = [] ↔ EndsPacket pages := by
  rw [unlace_rest_eq_nil_iff, EndsPacket]
  cases (lacingValues pages).getLast? with
  | none => simp
  | some value => simp

theorem iterOggPackets_stream (pages : List Page) :
    iterOggPackets (stream pages) =
      ((unlace 255 (lacingValues pages) (pages.flatMap Page.body) []).1,
        if (unlace 255 (lacingValues pages) (pages.flatMap Page.body) []).2 = [] then none
        else some "trailing partial Ogg packet") :=
  iterFrom_stream (Nat.zero_le _) List.drop_zero

theorem iterOggPackets_eq_none_iff {oggData : Bytes} :
    (iterOggPackets oggData).2 = none ↔ ∃ pages, oggData = stream pages ∧ EndsPacket pages := by
  constructor
  · intro h
    obtain ⟨pages, hpages⟩ := iterFrom_pages (Nat.zero_le _) h
    obtain rfl : oggData = stream pages := hpages
    rw [iterOggPackets_stream] at h
    refine ⟨pages, rfl, endsPacket_iff.mp ?_⟩
    by_contra hrest
    rw [if_neg hrest] at h
    cases h
  · rintro ⟨pages, rfl, hends⟩
    rw [iterOggPackets_stream, if_pos (endsPacket_iff.mpr hends)]

theorem iterOggPackets_of_laidOut {packets : List Bytes} {pages : List Page}
    (h : LaidOut packets pages) : iterOggPackets (stream pages) = (packets, none) := by
  rw [iterOggPackets_stream, h.segments, h.bodies, unlace_packets (by decide)]
  rfl

/-- What `extract_opus_packets` returns: the packets behind the two of the header that
are not empty, and there are some. -/
theorem extractOpusPackets_ok {oggData : Bytes} {audioPackets : List Bytes}
    (h : extractOpusPackets oggData = .ok audioPackets) :
    ∃ head tags rest, iterOggPackets oggData = (head :: tags :: rest, none) ∧
      opusHead.isPrefixOf head ∧ opusTags.isPrefixOf tags ∧
      audioPackets = rest.filter (fun packet => packet ≠ []) ∧ audioPackets ≠ [] := by
  unfold extractOpusPackets at h
  cases hiter : iterOggPackets oggData with
  | mk packets err =>
    rw [hiter] at h
    cases err with
    | some message => cases h
    | none =>
      dsimp only at h
      split_ifs at h with hlen hhead htags haudio
      cases h
      match packets, hlen with
      | head :: tags :: rest, _ =>
        exact ⟨head, tags, rest, rfl, by simpa using hhead, by simpa using htags, rfl, haudio⟩

/-- An Opus stream laid out on pages is read whole. -/
theorem extractOpusPackets_stream {head tags : Bytes} {audio : List Bytes} {pages : List Page}
    (hlaid : LaidOut (head :: tags :: audio) pages) (hhead : opusHead.isPrefixOf head)
    (htags : opusTags.isPrefixOf tags) (hne : audio ≠ []) (hfull : ∀ packet ∈ audio, packet ≠ []) :
    extractOpusPackets (stream pages) = .ok audio := by
  have hiter := iterOggPackets_of_laidOut hlaid
  have hfilter : audio.filter (fun packet => packet ≠ []) = audio :=
    List.filter_eq_self.mpr fun packet hpacket => decide_eq_true (hfull packet hpacket)
  have hlen := List.length_pos_iff.mpr hne
  rw [extractOpusPackets, hiter]
  dsimp only
  rw [if_neg (by simp only [List.length_cons]; omega), if_neg (by simp [hhead]),
    if_neg (by simp [htags]), List.drop_succ_cons, List.drop_succ_cons, List.drop_zero, hfilter,
    if_neg hne]

/-- **Ogg packets.** The packets laid out on pages are the ones read; and the walk raises
an error on every byte string but those that are pages and end with a packet. -/
theorem iterOggPackets_inverts :
    (∀ packets pages, LaidOut packets pages → iterOggPackets (stream pages) = (packets, none)) ∧
      ∀ oggData, (∃ message, (iterOggPackets oggData).2 = some message) ↔
        ¬ ∃ pages, oggData = stream pages ∧ EndsPacket pages := by
  constructor
  · exact fun packets pages h => iterOggPackets_of_laidOut h
  · intro oggData
    rw [← iterOggPackets_eq_none_iff]
    cases (iterOggPackets oggData).2 with
    | none => simp
    | some message => simp

end Jukeboy.Formats.Ogg
