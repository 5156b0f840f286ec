import Jukeboy.Base.ByteFile
import Jukeboy.Base.Fairness
import Jukeboy.Base.SelfDelimiting
import Jukeboy.Player.Decode

/-! # The packet walk over any chunk

The decoder task walks the packets of a chunk by position. What the walk reads and hands to
the Opus decoder is here compared with the packets that the chunk starts with, whatever the
chunk holds, and whatever the decoder, the stream of its output and a request to stop
answer in the meantime. -/
namespace Jukeboy.Player.PacketWalk

open Jukeboy.Base Jukeboy.Base.ByteFile Jukeboy.Base.Fairness Jukeboy.Base.SelfDelimiting
open Jukeboy.Formats.Jba Jukeboy.Player.Decode Jukeboy.Player.Track

/-! ## Length-prefixed packets -/

/-- A packet whose length a header can tell. -/
abbrev Word := { p : Packet // p.length ≤ opusMaxFrameLen }

def header (packetLen : Nat) : List UInt8 := (encodePacketLength packetLen).toOption.getD []

theorem header_cases {packetLen : Nat} (h : packetLen ≤ opusMaxFrameLen) :
    (packetLen < 252 ∧ header packetLen = [UInt8.ofNat packetLen]) ∨
      ∃ b0 b1 : UInt8, header packetLen = [b0, b1] ∧ 252 ≤ b0.toNat ∧
        b1.toNat * 4 + b0.toNat = packetLen := by
  obtain ⟨bytes, hbytes⟩ := encodePacketLength_of_le h
  have hheader : header packetLen = bytes := by
    rw [header, hbytes]
    rfl
  rw [hheader]
  exact (encodePacketLength_ok hbytes).2

theorem header_one {b : UInt8} (h : b.toNat < 252) : header b.toNat = [b] := by
  obtain ⟨-, hheader⟩ | ⟨b0, b1, -, hb0, hlen⟩ :=
    header_cases (show b.toNat ≤ opusMaxFrameLen by rw [opusMaxFrameLen]; omega)
  · rw [hheader, UInt8.ofNat_toNat]
  · omega

theorem header_two {b0 b1 : UInt8} (h : 252 ≤ b0.toNat) :
    header (b1.toNat * 4 + b0.toNat) = [b0, b1] := by
  have hb0 := b0.toNat_lt
  have hb1 := b1.toNat_lt
  obtain ⟨hshort, -⟩ | ⟨c0, c1, hheader, hc0, hlen⟩ := header_cases
    (show b1.toNat * 4 + b0.toNat ≤ opusMaxFrameLen by rw [opusMaxFrameLen]; omega)
  · omega
  · have := c0.toNat_lt
    have := c1.toNat_lt
    have heq0 : c0 = b0 := UInt8.toNat_inj.mp (by omega)
    have heq1 : c1 = b1 := UInt8.toNat_inj.mp (by omega)
    rw [hheader, heq0, heq1]

/-- The bytes of a packet whose length is known. -/
def cut (frameLen : Nat) (body : List UInt8) : Option (Word × List UInt8) :=
  if h : frameLen ≤ opusMaxFrameLen ∧ frameLen ≤ body.length then
    some (⟨body.take frameLen, by rw [List.length_take_of_le h.2]; exact h.1⟩, body.drop frameLen)
  else none

theorem cut_iff {frameLen : Nat} {body rest : List UInt8} {w : Word} :
    cut frameLen body = some (w, rest) ↔ w.val.length = frameLen ∧ body = w.val ++ rest := by
  unfold cut
  constructor
  · intro h
    split at h
    · next hfits =>
      cases h
      exact ⟨List.length_take_of_le hfits.2, (List.take_append_drop frameLen body).symm⟩
    · cases h
  · rintro ⟨rfl, rfl⟩
    have hfits : w.val.length ≤ opusMaxFrameLen ∧ w.val.length ≤ (w.val ++ rest).length :=
      ⟨w.property, by rw [List.length_append]; omega⟩
    rw [dif_pos hfits, Option.some.injEq, Prod.mk.injEq]
    exact ⟨Subtype.ext List.take_left, List.drop_left⟩

def split : List UInt8 → Option (Word × List UInt8)
  | [] => none
  | byte1 :: rest =>
    if byte1.toNat < 252 then cut byte1.toNat rest
    else
      match rest with
      | [] => none
      | byte2 :: body => cut (byte2.toNat * 4 + byte1.toNat) body

theorem split_one {b : UInt8} (h : b.toNat < 252) (body : List UInt8) :
    split (b :: body) = cut b.toNat body := if_pos h

theorem split_two {b0 b1 : UInt8} (h : ¬ b0.toNat < 252) (body : List UInt8) :
    split (b0 :: b1 :: body) = cut (b1.toNat * 4 + b0.toNat) body := if_neg h

theorem split_short {b : UInt8} (h : ¬ b.toNat < 252) : split [b] = none := if_neg h

theorem split_iff {bytes rest : List UInt8} {w : Word} :
    split bytes = some (w, rest) ↔ bytes = (header w.val.length ++ w.val) ++ rest := by
  constructor
  · intro h
    unfold split at h
    split at h
    · cases h
    · next byte1 body =>
      split at h
      · next hshort =>
        obtain ⟨hlen, rfl⟩ := cut_iff.mp h
        rw [hlen, header_one hshort]
        rfl
      · next hlong =>
        split at h
        · cases h
        · obtain ⟨hlen, rfl⟩ := cut_iff.mp h
          rw [hlen, header_two (Nat.not_lt.mp hlong)]
          rfl
  · rintro rfl
    obtain ⟨hshort, hheader⟩ | ⟨b0, b1, hheader, hb0, hlen⟩ := header_cases w.property
    · have hb : (UInt8.ofNat w.val.length).toNat = w.val.length := by
        rw [UInt8.toNat_ofNat']
        omega
      rw [hheader, List.append_assoc, List.singleton_append, split_one (by omega), hb]
      exact cut_iff.mpr ⟨rfl, rfl⟩
    · rw [hheader]
      refine (split_two (Nat.not_lt.mpr hb0) _).trans ?_
      rw [hlen]
      exact cut_iff.mpr ⟨rfl, rfl⟩

/-- The format of a chunk's payload. -/
def code : Code Word UInt8 where
  encode w := header w.val.length ++ w.val
  split := split
  encode_ne_nil w := by
    obtain ⟨-, hheader⟩ | ⟨b0, b1, hheader, -⟩ := header_cases w.property
    · rw [hheader]
      exact List.cons_ne_nil _ _
    · rw [hheader]
      exact List.cons_ne_nil _ _
  split_iff := split_iff

/-- The packets of a payload, without those of length zero. -/
def packets (ws : List Word) : List Packet := (ws.map Subtype.val).filter fun p => !p.isEmpty

/-! ## The walk -/

/-- What the walk is told at one of its steps: whether `player_service_should_stop`, what
`esp_opus_dec_decode` has decoded, and how much `xStreamBufferSend` has taken. -/
structure Answer where
  stop : Bool
  decoded : Option Nat
  sent : Nat

/-- At the head of the loop, at that of the loop which sends the decoded audio of a packet,
or past both. -/
inductive Phase where
  | looping
  | sending (written decodedSize pktSize : Nat)
  | ended
deriving DecidableEq, Repr

/-- `reads` are the positions read so far, `handed` the positions and lengths of what the
decoder got; the code keeps neither. -/
structure State where
  cursor : Nat
  phase : Phase
  running : Bool
  reads : List Nat
  handed : List (Nat × Nat)
deriving DecidableEq, Repr

def initial : State := ⟨0, .looping, true, [], []⟩

/-- The body of the loop once it knows the length of the packet. -/
def walkFrame (chunkLen : Nat) (a : Answer) (hdrSize frameLen : Nat) (s : State) : State :=
  let pktSize := hdrSize + frameLen
  if frameLen > opusMaxFrameLen then { s with phase := .ended }
  else if pktSize ≤ hdrSize then { s with cursor := s.cursor + hdrSize }
  else if pktSize > chunkLen - s.cursor then { s with phase := .ended }
  else
    let s := { s with handed := s.handed ++ [(s.cursor + hdrSize, frameLen)] }
    match a.decoded with
    | none | some 0 => { s with cursor := s.cursor + pktSize }
    | some decodedSize => { s with phase := .sending 0 decodedSize pktSize }

/-- The body of the loop; `chunkData` is the memory from the chunk on. -/
def walkPacket (chunkData : Nat → UInt8) (chunkLen : Nat) (a : Answer) (s : State) : State :=
  let byte1 := chunkData s.cursor
  let read := { s with reads := s.reads ++ [s.cursor] }
  if chunkLen - s.cursor < 1 then { read with phase := .ended }
  else if byte1.toNat < 252 then walkFrame chunkLen a 1 byte1.toNat read
  else if chunkLen - s.cursor < 2 then { read with phase := .ended }
  else
    let byte2 := chunkData (s.cursor + 1)
    walkFrame chunkLen a 2 (byte2.toNat * 4 + byte1.toNat)
      { s with reads := s.reads ++ [s.cursor, s.cursor + 1] }

def step (chunkData : Nat → UInt8) (chunkLen : Nat) (a : Answer) (s : State) : State :=
  match s.phase with
  | .looping =>
    if s.cursor < chunkLen then
      if a.stop then { s with running := false, phase := .ended }
      else walkPacket chunkData chunkLen a s
    else { s with phase := .ended }
  | .sending written decodedSize pktSize =>
    if written < decodedSize then
      if a.stop then { s with running := false, phase := .looping, cursor := s.cursor + pktSize }
      else
        { s with phase := .sending (written + min a.sent (decodedSize - written)) decodedSize pktSize }
    else { s with phase := .looping, cursor := s.cursor + pktSize }
  | .ended => s

/-- The walk after so many steps. -/
def walk (chunkData : Nat → UInt8) (chunkLen : Nat) (env : Nat → Answer) (n : Nat) : State :=
  states (step chunkData chunkLen) initial env n

/-- The bytes of the chunk. -/
def content (chunkData : Nat → UInt8) (chunkLen : Nat) : List UInt8 :=
  (List.range chunkLen).map chunkData

/-! ## What is claimed -/

/-- The walk reads inside the chunk, and hands over slices of it from the front to the back. -/
structure Safe (chunkLen : Nat) (s : State) : Prop where
  reads : ∀ i ∈ s.reads, i < chunkLen
  lengths : ∀ p ∈ s.handed, 1 ≤ p.2 ∧ p.2 ≤ opusMaxFrameLen
  inside : ∀ p ∈ s.handed, p.1 + p.2 ≤ chunkLen
  increasing : s.handed.Pairwise fun p q => p.1 + p.2 ≤ q.1

/-- The bytes handed over. -/
def slices (chunkData : Nat → UInt8) (chunkLen : Nat) (s : State) : List Packet :=
  s.handed.map fun p => slice (content chunkData chunkLen) p.1 p.2

/-- The walk ends, and has then handed over all packets that the chunk starts with. -/
structure Total (chunkData : Nat → UInt8) (chunkLen : Nat) (env : Nat → Answer) : Prop where
  ends : ∃ n, (walk chunkData chunkLen env n).phase = .ended
  all : ∀ n, (walk chunkData chunkLen env n).phase = .ended →
    ∃ ws, code.Longest (content chunkData chunkLen) ws ∧
      slices chunkData chunkLen (walk chunkData chunkLen env n) = packets ws

/-! ## One packet of the walk -/

variable {chunkData : Nat → UInt8} {chunkLen : Nat} {s : State}

@[simp] theorem length_content : (content chunkData chunkLen).length = chunkLen := by
  rw [content, List.length_map, List.length_range]

theorem drop_content {i : Nat} (h : i < chunkLen) :
    (content chunkData chunkLen).drop i =
      chunkData i :: (content chunkData chunkLen).drop (i + 1) := by
  have hi : i < (content chunkData chunkLen).length := by rwa [length_content]
  rw [List.drop_eq_getElem_cons hi]
  simp only [content, List.getElem_map, List.getElem_range]

/-- How far the walk has come, with the packet that it is sending. -/
def State.position (s : State) : Nat :=
  match s.phase with
  | .sending _ _ pktSize => s.cursor + pktSize
  | .looping | .ended => s.cursor

/-- The body of the loop has taken a packet, and handed it over if there is something to it. -/
structure Takes (s t : State) (w : Word) : Prop where
  position : t.position = s.cursor + (code.encode w).length
  goesOn : t.phase ≠ .ended
  reads : t.reads = s.reads
  handed : w.val = [] ∧ t.handed = s.handed ∨
    w.val ≠ [] ∧ t.handed = s.handed ++ [(s.cursor + (header w.val.length).length, w.val.length)]
  pktSize : ∀ written decodedSize size, t.phase = .sending written decodedSize size → 0 < size

@[simp] theorem position_looping (h : s.phase = .looping) : s.position = s.cursor := by
  rw [State.position, h]

theorem length_encode (w : Word) :
    (code.encode w).length = (header w.val.length).length + w.val.length := List.length_append

/-- The loop goes on right behind the packet. -/
theorem Takes.looping {t : State} {w : Word} (hphase : t.phase = .looping)
    (hcursor : t.cursor = s.cursor + (code.encode w).length) (hreads : t.reads = s.reads)
    (hhanded : w.val = [] ∧ t.handed = s.handed ∨ w.val ≠ [] ∧ t.handed =
      s.handed ++ [(s.cursor + (header w.val.length).length, w.val.length)]) : Takes s t w where
  position := by rw [position_looping hphase, hcursor]
  goesOn := by rw [hphase]; intro h; cases h
  reads := hreads
  handed := hhanded
  pktSize _ _ _ h := by cases hphase.symm.trans h

theorem walkFrame_cases (a : Answer) {hdrSize frameLen : Nat} (hphase : s.phase = .looping)
    (hheader : frameLen ≤ opusMaxFrameLen → (header frameLen).length = hdrSize)
    (hle : s.cursor + hdrSize ≤ chunkLen) :
    cut frameLen ((content chunkData chunkLen).drop (s.cursor + hdrSize)) = none ∧
        walkFrame chunkLen a hdrSize frameLen s = { s with phase := .ended } ∨
      ∃ w rest, cut frameLen ((content chunkData chunkLen).drop (s.cursor + hdrSize)) =
        some (w, rest) ∧ Takes s (walkFrame chunkLen a hdrSize frameLen s) w := by
  have hbody : ((content chunkData chunkLen).drop (s.cursor + hdrSize)).length =
      chunkLen - (s.cursor + hdrSize) := by
    rw [List.length_drop, length_content]
  simp only [walkFrame]
  cases hcut : cut frameLen ((content chunkData chunkLen).drop (s.cursor + hdrSize)) with
  | none =>
    refine .inl ⟨rfl, ?_⟩
    by_cases hmax : frameLen > opusMaxFrameLen
    · rw [if_pos hmax]
    · have hlong : frameLen > chunkLen - (s.cursor + hdrSize) := by
        by_contra hfits
        rw [cut, dif_pos ⟨Nat.not_lt.mp hmax, by omega⟩] at hcut
        cases hcut
      rw [if_neg hmax, if_neg (by omega), if_pos (by omega)]
  | some found =>
    obtain ⟨w, rest⟩ := found
    refine .inr ⟨w, rest, rfl, ?_⟩
    obtain ⟨rfl, hrest⟩ := cut_iff.mp hcut
    have hmax := w.property
    have hsize := length_encode w
    have hlen := congrArg List.length hrest
    rw [hbody, List.length_append] at hlen
    rw [hheader hmax] at hsize
    rw [if_neg (Nat.not_lt.mpr hmax)]
    by_cases hzero : w.val.length = 0
    · rw [if_pos (by omega)]
      refine .looping hphase ?_ rfl (.inl ⟨List.length_eq_zero_iff.mp hzero, rfl⟩)
      rw [hsize, hzero]
      rfl
    · rw [if_neg (by omega), if_neg (by omega)]
      have hne : w.val ≠ [] := fun hnil => hzero (List.length_eq_zero_iff.mpr hnil)
      split
      · exact .looping hphase (by rw [hsize]) rfl (.inr ⟨hne, by rw [hheader hmax]⟩)
      · exact .looping hphase (by rw [hsize]) rfl (.inr ⟨hne, by rw [hheader hmax]⟩)
      · refine ⟨by rw [hsize]; rfl, fun h => (by cases h), rfl, .inr ⟨hne, by rw [hheader hmax]⟩,
          ?_⟩
        rintro written decodedSize size ⟨⟩
        omega

/-- **The body of the loop** ends the walk where no packet follows, and takes the packet
otherwise. -/
theorem walkPacket_cases (chunkData : Nat → UInt8) (a : Answer) (hphase : s.phase = .looping)
    (hcursor : s.cursor < chunkLen) :
    ∃ more, (∀ i ∈ more, i < chunkLen) ∧
      (split ((content chunkData chunkLen).drop s.cursor) = none ∧
          walkPacket chunkData chunkLen a s =
            { s with reads := s.reads ++ more, phase := .ended } ∨
        ∃ w rest, split ((content chunkData chunkLen).drop s.cursor) = some (w, rest) ∧
          Takes { s with reads := s.reads ++ more } (walkPacket chunkData chunkLen a s) w) := by
  simp only [walkPacket]
  rw [if_neg (by omega), drop_content hcursor]
  by_cases hshort : (chunkData s.cursor).toNat < 252
  · rw [if_pos hshort, split_one hshort]
    refine ⟨[s.cursor], by simpa using hcursor, ?_⟩
    have hheader : (header (chunkData s.cursor).toNat).length = 1 := by
      rw [header_one hshort]
      rfl
    exact walkFrame_cases (s := { s with reads := s.reads ++ [s.cursor] }) a hphase
      (fun _ => hheader) hcursor
  · rw [if_neg hshort]
    by_cases htwo : chunkLen - s.cursor < 2
    · rw [if_pos htwo]
      refine ⟨[s.cursor], by simpa using hcursor, .inl ⟨?_, rfl⟩⟩
      have hnil : (content chunkData chunkLen).drop (s.cursor + 1) = [] := by
        rw [List.drop_eq_nil_iff, length_content]
        omega
      rw [hnil, split_short hshort]
    · rw [if_neg htwo]
      have hnext : s.cursor + 1 < chunkLen := by omega
      refine ⟨[s.cursor, s.cursor + 1], ?_, ?_⟩
      · simp only [List.mem_cons, List.not_mem_nil, or_false]
        omega
      · rw [drop_content hnext, split_two hshort]
        have hheader : (header ((chunkData (s.cursor + 1)).toNat * 4 +
            (chunkData s.cursor).toNat)).length = 2 := by
          rw [header_two (Nat.not_lt.mp hshort)]
          rfl
        exact walkFrame_cases (s := { s with reads := s.reads ++ [s.cursor, s.cursor + 1] }) a
          hphase (fun _ => hheader) hnext

/-! ## The invariant -/

structure Inv (chunkData : Nat → UInt8) (chunkLen : Nat) (s : State) : Prop where
  safe : Safe chunkLen s
  le : s.position ≤ chunkLen
  before : ∀ p ∈ s.handed, p.1 + p.2 ≤ s.position
  /-- What lies before the position are packets, and those with something to them were handed
  over. -/
  parsed : ∃ ws, (content chunkData chunkLen).take s.position = code.stream ws ∧
    slices chunkData chunkLen s = packets ws
  stuck : s.phase = .ended → s.running = true →
    split ((content chunkData chunkLen).drop s.position) = none
  pktSize : ∀ written decodedSize size, s.phase = .sending written decodedSize size → 0 < size

theorem inv_initial : Inv chunkData chunkLen initial where
  safe := ⟨fun _ h => (by cases h), fun _ h => (by cases h), fun _ h => (by cases h), .nil⟩
  le := Nat.zero_le _
  before := by
    intro _ h
    cases h
  parsed := ⟨[], rfl, rfl⟩
  stuck h := by cases h
  pktSize _ _ _ h := by cases h

/-- The walk reads, or turns to something else, at its position. -/
theorem Inv.turn (h : Inv chunkData chunkLen s) {t : State} (hposition : t.position = s.position)
    (hhanded : t.handed = s.handed) (hreads : ∀ i ∈ t.reads, i ∈ s.reads ∨ i < chunkLen)
    (hstuck : t.phase = .ended → t.running = true →
      split ((content chunkData chunkLen).drop s.position) = none)
    (hpktSize : ∀ written decodedSize size, t.phase = .sending written decodedSize size →
      0 < size) : Inv chunkData chunkLen t where
  safe := by
    refine ⟨fun i hi => (hreads i hi).elim (h.safe.reads i) id, ?_, ?_, ?_⟩
    · exact hhanded ▸ h.safe.lengths
    · exact hhanded ▸ h.safe.inside
    · exact hhanded ▸ h.safe.increasing
  le := hposition ▸ h.le
  before := by
    rw [hhanded, hposition]
    exact h.before
  parsed := by
    rw [hposition, slices, hhanded]
    exact h.parsed
  stuck := by
    rw [hposition]
    exact hstuck
  pktSize := hpktSize

theorem packets_append (ws : List Word) (w : Word) :
    packets (ws ++ [w]) = packets ws ++ packets [w] := by
  rw [packets, List.map_append, List.filter_append]
  rfl

/-- The walk takes the packet at its cursor. -/
theorem Inv.takes (h : Inv chunkData chunkLen s) (hphase : s.phase = .looping) {w : Word}
    {rest : List UInt8} (hsplit : split ((content chunkData chunkLen).drop s.cursor) = some (w, rest))
    {t : State} (ht : Takes s t w) : Inv chunkData chunkLen t := by
  have hdrop := split_iff.mp hsplit
  have hposition := position_looping hphase
  have hle := h.le
  have hbefore := h.before
  obtain ⟨ws, hws, hslices⟩ := h.parsed
  rw [hposition] at hle hbefore hws
  have hsize := length_encode w
  have hlen := congrArg List.length hdrop
  rw [List.length_drop, length_content, List.length_append, List.length_append] at hlen
  have htake : (content chunkData chunkLen).take t.position = code.stream (ws ++ [w]) := by
    rw [ht.position, List.take_add, hws, hdrop, code.stream_append, code.stream_cons,
      code.stream_nil, List.append_nil]
    exact congrArg _ List.take_left
  have hslice : slice (content chunkData chunkLen)
      (s.cursor + (header w.val.length).length) w.val.length = w.val := by
    rw [slice, ← List.drop_drop, hdrop, List.append_assoc, List.drop_left, List.take_left]
  have hnext : ∀ p ∈ s.handed, p.1 + p.2 ≤ t.position := by
    intro p hp
    have := hbefore p hp
    rw [ht.position]
    omega
  have hinside : t.position ≤ chunkLen := by
    rw [ht.position, hsize]
    omega
  obtain ⟨hnil, hhanded⟩ | ⟨hne, hhanded⟩ := ht.handed
  · refine ⟨?_, hinside, hhanded ▸ hnext, ⟨ws ++ [w], htake, ?_⟩,
      fun hended => absurd hended ht.goesOn, ht.pktSize⟩
    · exact ⟨ht.reads ▸ h.safe.reads, hhanded ▸ h.safe.lengths, hhanded ▸ h.safe.inside,
        hhanded ▸ h.safe.increasing⟩
    · have hskipped : packets [w] = [] := by
        rw [packets, List.map_singleton, hnil]
        rfl
      rw [packets_append, hskipped, List.append_nil, slices, hhanded]
      exact hslices
  · have hpos := List.length_pos_iff.mpr hne
    have hlast : s.cursor + (header w.val.length).length + w.val.length = t.position := by
      rw [ht.position, hsize, Nat.add_assoc]
    refine ⟨⟨ht.reads ▸ h.safe.reads, ?_, ?_, ?_⟩, hinside, ?_, ⟨ws ++ [w], htake, ?_⟩,
      fun hended => absurd hended ht.goesOn, ht.pktSize⟩
    · rw [hhanded, List.forall_mem_append]
      refine ⟨h.safe.lengths, ?_⟩
      rw [List.forall_mem_singleton]
      exact ⟨hpos, w.property⟩
    · rw [hhanded, List.forall_mem_append]
      refine ⟨h.safe.inside, ?_⟩
      rw [List.forall_mem_singleton]
      exact hlast ▸ hinside
    · rw [hhanded, List.pairwise_append]
      refine ⟨h.safe.increasing, List.pairwise_singleton _ _, ?_⟩
      intro p hp q hq
      rw [List.mem_singleton] at hq
      subst hq
      exact Nat.le_trans (hbefore p hp) (Nat.le_add_right ..)
    · rw [hhanded, List.forall_mem_append]
      refine ⟨hnext, ?_⟩
      rw [List.forall_mem_singleton]
      exact Nat.le_of_eq hlast
    · have hkept : packets [w] = [w.val] := by
        rw [packets, List.map_singleton]
        simp [hne]
      rw [packets_append, hkept, slices, hhanded, List.map_append, List.map_singleton, hslice]
      exact congrArg (· ++ [w.val]) hslices

theorem inv_step (a : Answer) (s : State) (h : Inv chunkData chunkLen s) :
    Inv chunkData chunkLen (step chunkData chunkLen a s) := by
  unfold step
  split
  · next hphase =>
    have hposition := position_looping hphase
    split
    · next hcursor =>
      split
      · exact h.turn hposition.symm rfl (fun _ hi => .inl hi)
          (fun _ hrunning => by cases hrunning) (fun _ _ _ h => by cases h)
      · obtain ⟨more, hmore, hcases⟩ := walkPacket_cases chunkData a hphase hcursor
        have hreads : ∀ i ∈ s.reads ++ more, i ∈ s.reads ∨ i < chunkLen :=
          fun i hi => (List.mem_append.mp hi).imp_right (hmore i)
        obtain ⟨hstuck, hend⟩ | ⟨w, rest, hsplit, htakes⟩ := hcases
        · rw [hend]
          exact h.turn hposition.symm rfl hreads (fun _ _ => hposition ▸ hstuck)
            (fun _ _ _ h => by cases h)
        · have hread : Inv chunkData chunkLen { s with reads := s.reads ++ more } :=
            h.turn rfl rfl hreads (fun hended => by cases hphase.symm.trans hended) h.pktSize
          exact hread.takes hphase hsplit htakes
    · next hcursor =>
      refine h.turn hposition.symm rfl (fun _ hi => .inl hi) (fun _ _ => ?_)
        (fun _ _ _ h => by cases h)
      rw [hposition, List.drop_eq_nil_of_le (by rw [length_content]; omega)]
      rfl
  · next written decodedSize pktSize hphase =>
    have hposition : s.position = s.cursor + pktSize := by rw [State.position, hphase]
    split
    · split
      · exact h.turn hposition.symm rfl (fun _ hi => .inl hi) (fun h => by cases h)
          (fun _ _ _ h => by cases h)
      · refine h.turn hposition.symm rfl (fun _ hi => .inl hi) (fun h => by cases h) ?_
        rintro _ _ size ⟨⟩
        exact h.pktSize written decodedSize pktSize hphase
    · exact h.turn hposition.symm rfl (fun _ hi => .inl hi) (fun h => by cases h)
        (fun _ _ _ h => by cases h)
  · exact h

/-! ## The end of the walk -/

/-- How far the walk has to go: the rest of the chunk, then what it is at. -/
def toGo (chunkLen : Nat) (s : State) : Nat × Nat :=
  (chunkLen - s.position,
    match s.phase with
    | .sending written decodedSize _ => 2 + (decodedSize - written)
    | .looping => 1
    | .ended => 0)

def Nearer (chunkLen : Nat) (t s : State) : Prop :=
  Prod.Lex (· < ·) (· < ·) (toGo chunkLen t) (toGo chunkLen s)

theorem nearer_wf (chunkLen : Nat) : WellFounded (Nearer chunkLen) :=
  InvImage.wf (toGo chunkLen) (WellFounded.prod_lex Nat.lt_wfRel.wf Nat.lt_wfRel.wf)

theorem nearer_of_position {t : State} (hle : t.position ≤ chunkLen) (h : s.position < t.position) :
    Nearer chunkLen t s := .left _ _ (by omega)

theorem nearer_of_phase {t : State} (hposition : t.position = s.position)
    (h : (toGo chunkLen t).2 < (toGo chunkLen s).2) : Nearer chunkLen t s := by
  rw [Nearer, Prod.lex_def]
  exact .inr ⟨by rw [toGo, toGo, hposition], h⟩

/-- The answer takes the walk forward wherever it is. -/
def Answer.forward (a : Answer) : Prop := a.stop = true ∨ 0 < a.sent

theorem Takes.advances {t : State} {w : Word} (h : Takes s t w) (hphase : s.phase = .looping) :
    s.position < t.position := by
  have hpos := List.length_pos_iff.mpr (code.encode_ne_nil w)
  rw [h.position, position_looping hphase]
  omega

/-- **One step** takes the walk forward, unless the stream takes nothing. -/
theorem step_nearer (a : Answer) (s : State) (h : Inv chunkData chunkLen s)
    (hgoing : ¬ s.phase = .ended) : step chunkData chunkLen a s = s ∧ ¬ a.forward ∨
      Nearer chunkLen (step chunkData chunkLen a s) s := by
  have hle := (inv_step a s h).le
  cases hphase : s.phase with
  | ended => exact absurd hphase hgoing
  | looping =>
    have hposition := position_looping hphase
    simp only [step, hphase] at hle ⊢
    refine .inr ?_
    by_cases hcursor : s.cursor < chunkLen
    · by_cases hstop : a.stop = true
      · rw [if_pos hcursor, if_pos hstop]
        exact nearer_of_phase hposition.symm (by simp [toGo, hphase])
      · rw [if_pos hcursor, if_neg hstop] at hle ⊢
        obtain ⟨more, -, ⟨-, hend⟩ | ⟨w, rest, -, htakes⟩⟩ :=
          walkPacket_cases chunkData a hphase hcursor
        · rw [hend]
          exact nearer_of_phase hposition.symm (by simp [toGo, hphase])
        · exact nearer_of_position hle (htakes.advances hphase)
    · rw [if_neg hcursor]
      exact nearer_of_phase hposition.symm (by simp [toGo, hphase])
  | sending written decodedSize pktSize =>
    have hposition : s.position = s.cursor + pktSize := by rw [State.position, hphase]
    simp only [step, hphase]
    by_cases hwritten : written < decodedSize
    · by_cases hstop : a.stop = true
      · rw [if_pos hwritten, if_pos hstop]
        exact .inr (nearer_of_phase hposition.symm (by simp only [toGo, hphase]; omega))
      · rw [if_pos hwritten, if_neg hstop]
        by_cases hsent : a.sent = 0
        · refine .inl ⟨?_, ?_⟩
          · rw [hsent, Nat.zero_min, Nat.add_zero, ← hphase]
          · rintro (hforward | hforward)
            · exact hstop hforward
            · omega
        · exact .inr (nearer_of_phase hposition.symm (by simp only [toGo, hphase]; omega))
    · rw [if_neg hwritten]
      exact .inr (nearer_of_phase hposition.symm (by simp only [toGo, hphase]; omega))

theorem inv_walk (env : Nat → Answer) (n : Nat) :
    Inv chunkData chunkLen (walk chunkData chunkLen env n) :=
  states_invariant inv_step inv_initial env n

theorem walk_ends {env : Nat → Answer} (hfair : Fair Answer.forward env) :
    ∃ n, (walk chunkData chunkLen env n).phase = .ended := by
  have h : Inv chunkData chunkLen initial := inv_initial
  refine eventually (P := fun s => s.phase = .ended) (nearer_wf chunkLen) inv_step ?_ ?_ hfair h
  · intro a s h hgoing
    exact (step_nearer a s h hgoing).imp_left And.left
  · intro a s h hgoing hforward
    exact (step_nearer a s h hgoing).resolve_left fun hstall => hstall.2 hforward

/-- The packets that were handed over are the first of those that the chunk starts with. -/
theorem slices_prefix (h : Inv chunkData chunkLen s) :
    slices chunkData chunkLen s <+: packets (code.words (content chunkData chunkLen)) := by
  obtain ⟨ws, hws, hslices⟩ := h.parsed
  have hsplit : content chunkData chunkLen =
      code.stream ws ++ (content chunkData chunkLen).drop s.position := by
    rw [← hws, List.take_append_drop]
  rw [hslices, hsplit, code.words_stream_append, packets, packets, List.map_append,
    List.filter_append]
  exact List.prefix_append _ _

theorem slices_of_ended (h : Inv chunkData chunkLen s) (hended : s.phase = .ended)
    (hrunning : s.running = true) :
    slices chunkData chunkLen s = packets (code.words (content chunkData chunkLen)) := by
  obtain ⟨ws, hws, hslices⟩ := h.parsed
  have hsplit : content chunkData chunkLen =
      code.stream ws ++ (content chunkData chunkLen).drop s.position := by
    rw [← hws, List.take_append_drop]
  rw [hslices, hsplit, code.words_stream_append, code.words_none (h.stuck hended hrunning),
    List.append_nil]

theorem walkFrame_running (a : Answer) (hdrSize frameLen : Nat) (s : State) :
    (walkFrame chunkLen a hdrSize frameLen s).running = s.running := by
  simp only [walkFrame]
  split
  · rfl
  · split
    · rfl
    · split
      · rfl
      · split
        all_goals rfl

theorem walkPacket_running (a : Answer) (s : State) :
    (walkPacket chunkData chunkLen a s).running = s.running := by
  simp only [walkPacket]
  split
  · rfl
  · split
    · exact walkFrame_running ..
    · split
      · rfl
      · exact walkFrame_running ..

theorem step_running {a : Answer} (hstop : a.stop = false) (s : State) :
    (step chunkData chunkLen a s).running = s.running := by
  unfold step
  rw [hstop]
  split
  · split
    · exact walkPacket_running a s
    · rfl
  · split
    · rfl
    · rfl
  · rfl

theorem running_of_not_stop {env : Nat → Answer} {n : Nat} (h : ∀ m < n, (env m).stop = false) :
    (walk chunkData chunkLen env n).running = true := by
  induction n with
  | zero => rfl
  | succ n ih =>
    have hrunning := ih fun m hm => h m (Nat.lt_succ_of_lt hm)
    exact (step_running (h n (Nat.lt_succ_self n)) _).trans hrunning

/-- **The packet walk** reads inside the chunk and hands over slices of it from the front to
the back. They are the first of the packets that the chunk starts with, and all of them when
the walk has ended without a request to stop; it ends when the stream of the decoder's output
takes something again and again. -/
theorem packet_walk (chunkData : Nat → UInt8) (chunkLen : Nat) (env : Nat → Answer) :
    (∀ n, Safe chunkLen (walk chunkData chunkLen env n)) ∧
    (Fair Answer.forward env → ∃ n, (walk chunkData chunkLen env n).phase = .ended) ∧
    ∃ ws, code.Longest (content chunkData chunkLen) ws ∧
      (∀ n, slices chunkData chunkLen (walk chunkData chunkLen env n) <+: packets ws) ∧
      ∀ n, (walk chunkData chunkLen env n).phase = .ended → (∀ m < n, (env m).stop = false) →
        slices chunkData chunkLen (walk chunkData chunkLen env n) = packets ws :=
  ⟨fun n => (inv_walk env n).safe, walk_ends, _, code.longest_iff.mpr rfl,
    fun n => slices_prefix (inv_walk env n),
    fun n hended hstop => slices_of_ended (inv_walk env n) hended (running_of_not_stop hstop)⟩

/-! ## A packet that is not handed over, and one that is not taken -/

/-- A chunk of one packet. -/
def onePacket (i : Nat) : UInt8 := if i = 0 then 1 else 7

def stopped (_ : Nat) : Answer := ⟨true, none, 0⟩

def stalled (_ : Nat) : Answer := ⟨false, some 4, 0⟩

theorem not_total : ¬ Total onePacket 2 stopped ∧ ¬ Total onePacket 2 stalled := by
  constructor
  · intro h
    obtain ⟨ws, hlongest, hslices⟩ := h.all 1 rfl
    have hwords : code.words (content onePacket 2) = [⟨[7], by decide⟩] :=
      code.words_stream [⟨[7], by decide⟩]
    rw [code.longest_iff.mp hlongest, hwords] at hslices
    cases hslices
  · intro h
    obtain ⟨n, hn⟩ := h.ends
    have hwaits : ∀ n, walk onePacket 2 stalled (n + 1) = walk onePacket 2 stalled 1 := by
      intro n
      induction n with
      | zero => rfl
      | succ n ih =>
        change step onePacket 2 (stalled (n + 1)) (walk onePacket 2 stalled (n + 1)) = _
        rw [ih]
        rfl
    cases n with
    | zero => cases hn
    | succ n =>
      rw [hwaits] at hn
      cases hn

/-! ## The decoder's handling of a message -/

/-- What one iteration does with a packet that was split off. -/
def walkStepOf : Option (Word × List UInt8) → WalkStep
  | none => .stop
  | some (w, rest) => if w.val = [] then .skip rest else .decode w.val rest

theorem decode_walkFrame_eq (frameLen : Nat) (body : List UInt8) :
    Decode.walkFrame frameLen body = walkStepOf (cut frameLen body) := by
  unfold Decode.walkFrame
  cases hcut : cut frameLen body with
  | none =>
    by_cases hmax : frameLen > opusMaxFrameLen
    · rw [if_pos hmax]
      rfl
    · have hlong : frameLen > body.length := by
        by_contra hfits
        rw [cut, dif_pos ⟨by omega, by omega⟩] at hcut
        cases hcut
      rw [if_neg hmax, if_neg (by omega), if_pos hlong]
      rfl
  | some found =>
    obtain ⟨w, rest⟩ := found
    obtain ⟨rfl, rfl⟩ := cut_iff.mp hcut
    rw [if_neg (Nat.not_lt.mpr w.property), walkStepOf]
    by_cases hnil : w.val = []
    · rw [if_pos hnil, if_pos (by rw [hnil]; rfl), hnil]
      rfl
    · have hpos := List.length_pos_iff.mpr hnil
      rw [if_neg hnil, if_neg (by omega), if_neg (by rw [List.length_append]; omega),
        List.take_left, List.drop_left]

theorem walkStep_eq (data : List UInt8) : walkStep data = walkStepOf (split data) := by
  cases data with
  | nil => rfl
  | cons byte1 rest =>
    by_cases hshort : byte1.toNat < 252
    · rw [split_one hshort, ← decode_walkFrame_eq]
      exact if_pos hshort
    · cases rest with
      | nil =>
        rw [split_short hshort]
        exact if_neg hshort
      | cons byte2 body =>
        rw [split_two hshort, ← decode_walkFrame_eq]
        exact if_neg hshort

/-- The walk over the rest of the bytes finds the same packets. -/
theorem walkPackets_eq (data : List UInt8) : walkPackets data = packets (code.words data) := by
  have hstep := walkStep_eq data
  cases hsplit : split data with
  | none =>
    rw [hsplit] at hstep
    rw [code.words_none hsplit, walkPackets]
    split
    · rfl
    · next heq => cases hstep.symm.trans heq
    · next heq => cases hstep.symm.trans heq
  | some found =>
    obtain ⟨w, rest⟩ := found
    have hlt := code.split_lt hsplit
    have hdata : data = code.encode w ++ rest := split_iff.mp hsplit
    have ih := walkPackets_eq rest
    rw [hsplit, walkStepOf] at hstep
    have hwords : code.words data = w :: code.words rest := by rw [hdata, code.words_encode]
    rw [hwords, packets, List.map_cons]
    by_cases hnil : w.val = []
    · rw [if_pos hnil] at hstep
      rw [walkPackets]
      split
      · next heq => cases hstep.symm.trans heq
      · next heq =>
        cases hstep.symm.trans heq
        rw [ih, hnil]
        rfl
      · next heq => cases hstep.symm.trans heq
    · rw [if_neg hnil] at hstep
      rw [walkPackets_decode hstep, ih, List.filter_cons]
      simp [hnil, packets]
termination_by data.length

end Jukeboy.Player.PacketWalk
