import Jukeboy.Base.Slip

/-! # Receiving SLIP packets

The receive loop of the download protocol: one call waits for an END, collects the
bytes up to the next one into a buffer of fixed size, and counts those that do not
fit. It refines the reader of the framing as long as the counter, an `int`, can
hold what it counts. -/
namespace Jukeboy.Bootloader.SlipReceive

open Jukeboy.Base Jukeboy.Base.Slip

/-- `INT_MAX`. -/
def intMax : Nat := 2147483647

/-- `sizeof(s_dl_recv_buf)`. -/
def recvBufSize : Nat := 8192

/-- `dl_slip_putc`. -/
def slipPutc (c : UInt8) : Bytes :=
  if c = slipEnd then [slipEsc, slipEscEnd]
  else if c = slipEsc then [slipEsc, slipEscEsc]
  else [c]

/-- A packet between two ENDs, as `dl_send_resp` and the host send it. -/
def sendPacket (p : Bytes) : Bytes := slipEnd :: (p.flatMap slipPutc ++ [slipEnd])

/-! ## One call -/

/-- The count a call returns, and the bytes it stored from the start of the buffer. -/
structure Packet where
  len : Nat
  stored : Bytes
deriving DecidableEq, Repr

/-- A call returns with the bytes still to come, waits for more bytes, or counts past
`INT_MAX`, which C leaves undefined. -/
inductive Recv where
  | returned (p : Packet) (rest : Bytes)
  | blocked
  | overflowed
deriving DecidableEq, Repr

/-- The locals of the loop, and what it stored. -/
structure Frame where
  len : Nat
  stored : Bytes
  inEsc : Bool

/-- `if (len < buflen) buf[len] = c; len++;` -/
def Frame.put (buflen : Nat) (c : UInt8) (f : Frame) : Frame where
  len := f.len + 1
  stored := if f.len < buflen then f.stored ++ [c] else f.stored
  inEsc := false

/-- The endless loop of `dl_slip_recv`. -/
def recvLoop (buflen : Nat) : Frame → Bytes → Recv
  | _, [] => .blocked
  | f, c :: rest =>
    if !f.inEsc && c == slipEnd then
      if 0 < f.len then .returned ⟨f.len, f.stored⟩ rest else recvLoop buflen f rest
    else if !f.inEsc && c == slipEsc then recvLoop buflen { f with inEsc := true } rest
    else if f.len = intMax then .overflowed
    else recvLoop buflen (f.put buflen (if f.inEsc then unescape c else c)) rest

/-- `dl_slip_recv`. -/
def recv (buflen : Nat) : Bytes → Recv
  | [] => .blocked
  | c :: rest => if c = slipEnd then recvLoop buflen ⟨0, [], false⟩ rest else recv buflen rest

/-! ## Successive calls -/

/-- How a number of calls end: all returned, or the last one did not. -/
inductive Ending where
  | returned
  | blocked
  | overflowed
deriving DecidableEq, Repr

/-- What successive calls return, at most `n` of them. -/
def recvCalls (buflen : Nat) : Nat → Bytes → List Packet × Ending
  | 0, _ => ([], .returned)
  | n + 1, bytes =>
    match recv buflen bytes with
    | .returned p rest => (p :: (recvCalls buflen n rest).1, (recvCalls buflen n rest).2)
    | .blocked => ([], .blocked)
    | .overflowed => ([], .overflowed)

/-- What a call returns for a frame. -/
def packetOf (buflen : Nat) (p : Bytes) : Packet := ⟨p.length, p.take buflen⟩

theorem sendPacket_eq (p : Bytes) : sendPacket p = Slip.frame p := rfl

/-! ## A call and the reader -/

variable {buflen : Nat} {got bytes rest : Bytes} {escaped : Bool}

/-- The loop after these bytes of a frame. -/
def Frame.holding (buflen : Nat) (got : Bytes) (escaped : Bool) : Frame :=
  ⟨got.length, got.take buflen, escaped⟩

theorem put_holding (buflen : Nat) (got : Bytes) (escaped : Bool) (c : UInt8) :
    (Frame.holding buflen got escaped).put buflen c =
      Frame.holding buflen (got ++ [c]) false := by
  unfold Frame.put Frame.holding
  have hlen : got.length + 1 = (got ++ [c]).length := by simp
  have hstored : (if got.length < buflen then got.take buflen ++ [c] else got.take buflen) =
      (got ++ [c]).take buflen := by
    split
    · next h =>
      rw [List.take_of_length_le h.le, List.take_of_length_le (by simp; omega)]
    · next h =>
      rw [List.take_append_of_le_length (not_lt.mp h)]
  rw [← hlen, ← hstored]

/-- What a call that is inside a frame does, said by the reader. -/
inductive Reads (buflen : Nat) (r : Reader) (bytes : Bytes) : Recv → Prop where
  | returned (pre rest p : Bytes) (hbytes : bytes = pre ++ rest)
      (hread : r.read pre = ([p], .outside)) (hwithin : r.Within intMax pre) :
      Reads buflen r bytes (.returned (packetOf buflen p) rest)
  | blocked (hread : (r.read bytes).1 = []) (hwithin : r.Within intMax bytes) :
      Reads buflen r bytes .blocked
  | overflowed (hwithin : ¬ r.Within intMax bytes) : Reads buflen r bytes .overflowed

theorem Reads.step {r r' : Reader} {c : UInt8} {out : Recv} (htake : r.take c = (r', none))
    (hheld : r.held.length ≤ intMax) (h : Reads buflen r' bytes out) :
    Reads buflen r (c :: bytes) out := by
  have hread : ∀ pre, r.read (c :: pre) = r'.read pre := by
    intro pre
    rw [Reader.read, htake]
    rfl
  have hwithin : ∀ pre, r.Within intMax (c :: pre) ↔ r'.Within intMax pre := by
    intro pre
    rw [Reader.Within, htake]
    exact ⟨fun h => h.2, fun h => ⟨hheld, h⟩⟩
  cases h with
  | returned pre rest p hbytes hp hin =>
    exact .returned (c :: pre) rest p (by rw [hbytes]; rfl) ((hread pre).trans hp)
      ((hwithin pre).mpr hin)
  | blocked hp hin => exact .blocked (by rw [hread]; exact hp) ((hwithin bytes).mpr hin)
  | overflowed hout => exact .overflowed (mt (hwithin bytes).mp hout)

theorem recvLoop_reads (buflen : Nat) (got : Bytes) (escaped : Bool) (bytes : Bytes)
    (hgot : got.length ≤ intMax) :
    Reads buflen (.inside got escaped) bytes
      (recvLoop buflen (.holding buflen got escaped) bytes) := by
  induction bytes generalizing got escaped with
  | nil => exact .blocked rfl hgot
  | cons c bytes ih =>
    have hput : ∀ d, (Reader.inside got escaped).take c = (.inside (got ++ [d]) false, none) →
        Reads buflen (.inside got escaped) (c :: bytes)
          (if got.length = intMax then .overflowed
            else recvLoop buflen ((Frame.holding buflen got escaped).put buflen d) bytes) := by
      intro d htake
      split
      · next hfull =>
        refine .overflowed fun h => ?_
        rw [Reader.Within, htake] at h
        have hnext : (got ++ [d]).length ≤ intMax := by
          cases bytes with
          | nil => exact h.2
          | cons => exact h.2.1
        rw [List.length_append, hfull, List.length_singleton] at hnext
        omega
      · next hroom =>
        rw [put_holding]
        refine Reads.step htake hgot (ih (got ++ [d]) false ?_)
        rw [List.length_append, List.length_singleton]
        omega
    cases escaped with
    | true => exact hput (unescape c) rfl
    | false =>
      by_cases hend : c = slipEnd
      · rw [hend]
        by_cases hnil : got = []
        · rw [hnil]
          exact Reads.step rfl (Nat.zero_le _) (ih [] false (Nat.zero_le _))
        · have hlen : 0 < (Frame.holding buflen got false).len := List.length_pos_of_ne_nil hnil
          unfold recvLoop
          rw [if_pos (by rfl), if_pos hlen]
          refine .returned [slipEnd] bytes got rfl (Reader.read_end hnil) ⟨hgot, ?_⟩
          rw [Reader.take_end hnil]
          exact Nat.zero_le _
      · have hc : (c == slipEnd) = false := beq_false_of_ne hend
        by_cases hesc : c = slipEsc
        · have htake : (Reader.inside got false).take c = (.inside got true, none) := by
            simp only [Reader.take, if_neg hend, if_pos hesc]
          have hc' : (c == slipEsc) = true := beq_iff_eq.mpr hesc
          have hloop : recvLoop buflen (.holding buflen got false) (c :: bytes) =
              recvLoop buflen (.holding buflen got true) bytes := by
            simp only [recvLoop, Frame.holding, hc, hc', Bool.and_false, Bool.and_true,
              Bool.not_false, Bool.false_eq_true, if_false, if_true]
          rw [hloop]
          exact Reads.step htake hgot (ih got true hgot)
        · have htake : (Reader.inside got false).take c = (.inside (got ++ [c]) false, none) := by
            simp only [Reader.take, if_neg hend, if_neg hesc]
          have hc' : (c == slipEsc) = false := beq_false_of_ne hesc
          have hloop : recvLoop buflen (.holding buflen got false) (c :: bytes) =
              if got.length = intMax then .overflowed
              else recvLoop buflen ((Frame.holding buflen got false).put buflen c) bytes := by
            simp only [recvLoop, Frame.holding, hc, hc', Bool.and_false, Bool.false_eq_true,
              if_false]
          rw [hloop]
          exact hput c htake

/-- **A call**: the first frame the reader gives, nothing yet, or a frame too long. -/
theorem recv_reads (buflen : Nat) (bytes : Bytes) :
    Reads buflen .outside bytes (recv buflen bytes) := by
  induction bytes with
  | nil => exact .blocked rfl (Nat.zero_le _)
  | cons c bytes ih =>
    unfold recv
    by_cases hc : c = slipEnd
    · have htake : Reader.outside.take c = (.inside [] false, none) := by
        simp only [Reader.take, if_pos hc]
      have hstart : Frame.holding buflen [] false = ⟨0, [], false⟩ := by
        simp [Frame.holding]
      rw [if_pos hc, ← hstart]
      exact Reads.step htake (Nat.zero_le _) (recvLoop_reads buflen [] false bytes (Nat.zero_le _))
    · have htake : Reader.outside.take c = (.outside, none) := by
        simp only [Reader.take, if_neg hc]
      rw [if_neg hc]
      exact Reads.step htake (Nat.zero_le _) ih

/-! ## A call and a frame -/

theorem recvLoop_put {c d : UInt8} (escaped : Bool) (hroom : got.length < intMax)
    (hstep : recvLoop buflen (.holding buflen got escaped) (c :: rest) =
      if got.length = intMax then .overflowed
      else recvLoop buflen ((Frame.holding buflen got escaped).put buflen d) rest) :
    recvLoop buflen (.holding buflen got escaped) (c :: rest) =
      recvLoop buflen (.holding buflen (got ++ [d]) false) rest := by
  rw [hstep, if_neg (Nat.ne_of_lt hroom), put_holding]

theorem recvLoop_escape (c : UInt8) (hroom : got.length < intMax) :
    recvLoop buflen (.holding buflen got false) (escape c ++ rest) =
      recvLoop buflen (.holding buflen (got ++ [c]) false) rest := by
  unfold escape
  split
  · next hend =>
    rw [hend]
    exact recvLoop_put (c := slipEscEnd) (d := slipEnd) true hroom rfl
  · next hend =>
    split
    · next hesc =>
      rw [hesc]
      exact recvLoop_put (c := slipEscEsc) (d := slipEsc) true hroom rfl
    · next hesc =>
      refine recvLoop_put false hroom ?_
      simp only [recvLoop, Frame.holding, beq_false_of_ne hend, beq_false_of_ne hesc,
        Bool.and_false, Bool.false_eq_true, if_false]

theorem recvLoop_flatMap {p : Bytes} (hroom : got.length + p.length ≤ intMax) :
    recvLoop buflen (.holding buflen got false) (p.flatMap escape ++ rest) =
      recvLoop buflen (.holding buflen (got ++ p) false) rest := by
  induction p generalizing got with
  | nil => simp
  | cons c p ih =>
    rw [List.length_cons] at hroom
    rw [List.flatMap_cons, List.append_assoc, recvLoop_escape c (by omega), ih, List.append_assoc]
    · rfl
    · rw [List.length_append, List.length_singleton]
      omega

/-- A call returns the packet in front, and leaves what follows. -/
theorem recv_sendPacket {p : Bytes} (hp : p ≠ []) (hlen : p.length ≤ intMax) (rest : Bytes) :
    recv buflen (sendPacket p ++ rest) = .returned (packetOf buflen p) rest := by
  have hstart : (⟨0, [], false⟩ : Frame) = .holding buflen [] false := by simp [Frame.holding]
  have hpos : 0 < (Frame.holding buflen p false).len := List.length_pos_of_ne_nil hp
  have hbytes : sendPacket p ++ rest = slipEnd :: (p.flatMap escape ++ (slipEnd :: rest)) := by
    simp only [sendPacket_eq, frame, List.cons_append, List.append_assoc, List.nil_append]
  rw [hbytes, recv, if_pos rfl, hstart, recvLoop_flatMap (by simpa using hlen), List.nil_append]
  unfold recvLoop
  rw [if_pos (by rfl), if_pos hpos]
  rfl

theorem recvCalls_stream (buflen : Nat) {ps : List Bytes} (hps : ∀ p ∈ ps, p ≠ [] ∧ p.length ≤ intMax)
    (n : Nat) (rest : Bytes) :
    (recvCalls buflen (ps.length + n) (ps.flatMap sendPacket ++ rest)).1 =
      ps.map (packetOf buflen) ++ (recvCalls buflen n rest).1 := by
  induction ps with
  | nil => simp
  | cons p ps ih =>
    obtain ⟨hne, hlen⟩ := hps p List.mem_cons_self
    have hrest := ih fun q hq => hps q (List.mem_cons_of_mem p hq)
    have hcount : (p :: ps).length + n = (ps.length + n) + 1 := by
      rw [List.length_cons]
      omega
    rw [hcount, List.flatMap_cons, List.append_assoc, recvCalls, recv_sendPacket hne hlen]
    dsimp only
    rw [hrest]
    rfl

/-! ## Successive calls and the reader -/

theorem read_after {pre rest : Bytes} {p : Bytes} (hread : Reader.outside.read pre = ([p], .outside)) :
    (Reader.outside.read (pre ++ rest)).1 = p :: (Reader.outside.read rest).1 := by
  rw [Reader.read_append, hread]
  rfl

theorem recvCalls_of_within (buflen : Nat) {n : Nat}
    (hwithin : Reader.outside.Within intMax bytes) (hn : (Reader.outside.read bytes).1.length < n) :
    recvCalls buflen n bytes = ((Reader.outside.read bytes).1.map (packetOf buflen), .blocked) := by
  induction n generalizing bytes with
  | zero => exact absurd hn (Nat.not_lt_zero _)
  | succ n ih =>
    have h := recv_reads buflen bytes
    rw [recvCalls]
    generalize recv buflen bytes = out at h ⊢
    cases h with
    | returned pre rest p hbytes hread _ =>
      rw [hbytes, read_after hread, List.length_cons] at hn
      rw [hbytes, Reader.within_append, hread] at hwithin
      have hrest := ih hwithin.2 (Nat.lt_of_succ_lt_succ hn)
      dsimp only
      rw [hrest, hbytes, read_after hread, List.map_cons]
    | blocked hread _ =>
      dsimp only
      rw [hread]
      rfl
    | overflowed hout => exact absurd hwithin hout

theorem within_of_blocked (buflen : Nat) {n : Nat} (h : (recvCalls buflen n bytes).2 = .blocked) :
    Reader.outside.Within intMax bytes := by
  induction n generalizing bytes with
  | zero => cases h
  | succ n ih =>
    have hcall := recv_reads buflen bytes
    rw [recvCalls] at h
    generalize recv buflen bytes = out at h hcall
    cases hcall with
    | returned pre rest p hbytes hread hin =>
      rw [hbytes, Reader.within_append, hread]
      exact ⟨hin, ih h⟩
    | blocked _ hin => exact hin
    | overflowed _ => cases h

/-! ## Packets behind noise -/

/-- What a call returns for a packet that fits the buffer. -/
def whole (p : Bytes) : Packet := ⟨p.length, p⟩

/-- The calls return the packets behind the noise, but for the first, after no more
garbage than the noise has ENDs, and then wait for more bytes. -/
def Resynced (noise : Bytes) (ps : List Bytes) (n : Nat) : Prop :=
  ∃ garbage kept, recvCalls recvBufSize n (noise ++ ps.flatMap sendPacket) =
      (garbage ++ kept.map whole, .blocked) ∧
    (kept = ps ∨ kept = ps.tail) ∧ garbage.length ≤ noise.count slipEnd

theorem map_packetOf {kept : List Bytes} (h : ∀ p ∈ kept, p.length ≤ recvBufSize) :
    kept.map (packetOf recvBufSize) = kept.map whole := by
  refine List.map_congr_left fun p hp => ?_
  unfold packetOf whole
  rw [List.take_of_length_le (h p hp)]

/-- **The codec.** The calls return the packets of a stream exactly; behind any noise
they resynchronise exactly when no frame of the bytes is longer than the counter can
hold. -/
theorem slip_resync (noise : Bytes) (ps : List Bytes) (n : Nat)
    (hps : ∀ p ∈ ps, p ≠ [] ∧ p.length ≤ recvBufSize) (hn : noise.length + ps.length < n) :
    recvCalls recvBufSize n (ps.flatMap sendPacket) = (ps.map whole, .blocked) ∧
      (Resynced noise ps n ↔ Reader.outside.Within intMax (noise ++ ps.flatMap sendPacket)) := by
  have hne : ∀ p ∈ ps, p ≠ [] := fun p hp => (hps p hp).1
  have hstream : ps.flatMap sendPacket = stream ps := rfl
  rw [Resynced, hstream]
  constructor
  · have hin : Reader.outside.Within intMax (stream ps) := Reader.within_stream fun p hp =>
      ⟨(hps p hp).1, (hps p hp).2.trans (by decide)⟩
    have hread := Reader.read_stream hne (.inl rfl)
    rw [recvCalls_of_within recvBufSize hin (by rw [hread]; omega), hread,
      map_packetOf fun p hp => (hps p hp).2]
  · constructor
    · rintro ⟨garbage, kept, heq, -⟩
      exact within_of_blocked recvBufSize (congrArg Prod.snd heq)
    · intro hin
      obtain ⟨garbage, kept, hread, hkept, hfew⟩ :=
        Reader.read_stream_resync hne (Reader.outside.read noise).2
      have hframes : (Reader.outside.read (noise ++ stream ps)).1 =
          (Reader.outside.read noise).1 ++ garbage ++ kept := by
        rw [Reader.read_append, hread, List.append_assoc]
      have hends : ((Reader.outside.read noise).1 ++ garbage).length ≤ noise.count slipEnd := by
        have hopened := Reader.read_length_le .outside noise
        rw [Reader.opened, Nat.zero_add] at hopened
        rw [List.length_append]
        omega
      have hlen : kept.length ≤ ps.length := by
        rcases hkept with rfl | rfl
        · exact Nat.le_refl _
        · simp
      have hmem : ∀ p ∈ kept, p.length ≤ recvBufSize := fun p hp => by
        rcases hkept with rfl | rfl
        · exact (hps p hp).2
        · exact (hps p (List.mem_of_mem_tail hp)).2
      have hcount := List.count_le_length (a := slipEnd) (l := noise)
      refine ⟨((Reader.outside.read noise).1 ++ garbage).map (packetOf recvBufSize), kept, ?_, hkept,
        by rw [List.length_map]; exact hends⟩
      rw [recvCalls_of_within recvBufSize hin, hframes, List.map_append, map_packetOf hmem]
      rw [hframes, List.length_append]
      omega

/-- A cut packet and a dangling ESC in front of three packets: the first is lost. -/
theorem slip_resync_cut :
    recvCalls recvBufSize 9 ([[1], [0xC0, 2], [3]].flatMap sendPacket) =
        ([[1], [0xC0, 2], [3]].map whole, .blocked) ∧
      Resynced [7, 0xC0, 8, 0xDB] [[1], [0xC0, 2], [3]] 9 :=
  have h := slip_resync [7, 0xC0, 8, 0xDB] [[1], [0xC0, 2], [3]] 9 (by decide) (by decide)
  ⟨h.1, h.2.mpr (by decide +kernel)⟩

theorem not_resynced_replicate {c : UInt8} {k n : Nat} (ps : List Bytes) (hend : c ≠ slipEnd)
    (hesc : c ≠ slipEsc) (hk : intMax < k) :
    ¬ Resynced (slipEnd :: List.replicate k c) ps n := by
  rintro ⟨garbage, kept, heq, -⟩
  have hin := within_of_blocked recvBufSize (congrArg Prod.snd heq)
  have hnoise := (Reader.within_append.mp hin).1
  have hlen := Reader.within_replicate hend hesc hnoise.2
  rw [List.length_nil, Nat.zero_add] at hlen
  exact absurd hlen (not_le.mpr hk)

/-- Two packets behind an END and 2 GiB of zeros: the counter leaves the range of
`int` before the noise ends. -/
theorem slip_counter_overflows :
    ¬ Resynced (slipEnd :: List.replicate 2147483648 0) [[1], [2]] 4294967296 :=
  not_resynced_replicate [[1], [2]] (by decide) (by decide) (by decide)

end Jukeboy.Bootloader.SlipReceive
