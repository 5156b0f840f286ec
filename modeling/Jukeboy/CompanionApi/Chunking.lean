import Jukeboy.CompanionApi.RxBuffer

/-! # Cutting a request stream into chunks

A stream of well-formed request frames reaches the parser in chunks. As long as
every chunk fits behind the partial frame that is buffered, the parser hands
out exactly the frames; the first chunk that does not fit is dropped with the
buffer. -/
namespace Jukeboy.CompanionApi.Chunking
open Jukeboy.Base.LittleEndian Jukeboy.CompanionApi.Tlv Jukeboy.CompanionApi.Protocol
open Jukeboy.CompanionApi.RxBuffer

/-! ## Well-formed request frames -/

/-- The 12 bytes before the payload of a request frame. -/
def requestHeader (r : Request) : Bytes :=
  [magic0, magic1, apiVersion, FrameType.request.code] ++ (u16Bytes r.opcode ++
    (u32Bytes r.requestId ++ leBytes 2 r.payload.length))

/-- A request frame as the client sends it. -/
def encodeRequest (r : Request) : Bytes := requestHeader r ++ r.payload

/-- The frame has at most 2048 bytes. -/
def WellFormed (r : Request) : Prop := headerLen + r.payload.length ≤ frameMaxLen

instance (r : Request) : Decidable (WellFormed r) := inferInstanceAs (Decidable (_ ≤ _))

/-- The concatenation of request frames. -/
def stream (rs : List Request) : Bytes := rs.flatMap encodeRequest

@[simp] theorem stream_nil : stream [] = [] := rfl

@[simp] theorem stream_cons (r : Request) (rs : List Request) :
    stream (r :: rs) = encodeRequest r ++ stream rs := rfl

@[simp] theorem length_requestHeader (r : Request) : (requestHeader r).length = headerLen := by
  simp [requestHeader, headerLen]

theorem length_encodeRequest (r : Request) :
    (encodeRequest r).length = headerLen + r.payload.length := by
  rw [encodeRequest, List.length_append, length_requestHeader]

theorem readU16_u16Bytes (v : UInt16) (rest : Bytes) : readU16 (u16Bytes v ++ rest) = v := by
  rw [readU16, u16Bytes, leNat_take_leBytes rest (by simpa using v.toNat_lt), UInt16.ofNat_toNat]

theorem readU32_u32Bytes (v : UInt32) (rest : Bytes) : readU32 (u32Bytes v ++ rest) = v := by
  rw [readU32, u32Bytes, leNat_take_leBytes rest (by simpa using v.toNat_lt), UInt32.ofNat_toNat]

theorem toNat_readU16_leBytes {n : Nat} (rest : Bytes) (h : n < 65536) :
    (readU16 (leBytes 2 n ++ rest)).toNat = n := by
  rw [readU16, leNat_take_leBytes rest (by omega), UInt16.toNat_ofNat', Nat.mod_eq_of_lt h]

/-- The bytes that were read as a number are the bytes of the number. -/
theorem leBytes_readU16 {bytes : Bytes} (h : 2 ≤ bytes.length) :
    leBytes 2 (readU16 bytes).toNat = bytes.take 2 := by
  obtain ⟨hback, hlt⟩ := leBytes_leNat_take h
  have hlt : leNat (bytes.take 2) < 2 ^ 16 := hlt
  rw [readU16, UInt16.toNat_ofNat', Nat.mod_eq_of_lt hlt, hback]

theorem leBytes_readU32 {bytes : Bytes} (h : 4 ≤ bytes.length) :
    leBytes 4 (readU32 bytes).toNat = bytes.take 4 := by
  obtain ⟨hback, hlt⟩ := leBytes_leNat_take h
  have hlt : leNat (bytes.take 4) < 2 ^ 32 := hlt
  rw [readU32, UInt32.toNat_ofNat', Nat.mod_eq_of_lt hlt, hback]

/-! ## One turn of the parser -/

/-- Behind the header of a well-formed request the parser waits for the payload
and then hands the request out. -/
theorem parseStep_requestHeader {r : Request} (rest : Bytes) (hr : WellFormed r) :
    parseStep (requestHeader r ++ rest) =
      if rest.length < r.payload.length then .wait
      else .advance (.request ⟨r.opcode, r.requestId, rest.take r.payload.length⟩)
        (rest.drop r.payload.length) := by
  have hdrop4 : (requestHeader r ++ rest).drop 4 = u16Bytes r.opcode ++
      (u32Bytes r.requestId ++ (leBytes 2 r.payload.length ++ rest)) := by
    simp [requestHeader]
  have hdrop6 : (requestHeader r ++ rest).drop 6 =
      u32Bytes r.requestId ++ (leBytes 2 r.payload.length ++ rest) := by
    rw [show 6 = 4 + 2 from rfl, ← List.drop_drop, hdrop4,
      List.drop_left' (length_u16Bytes _)]
  have hdrop10 : (requestHeader r ++ rest).drop 10 = leBytes 2 r.payload.length ++ rest := by
    rw [show 10 = 6 + 4 from rfl, ← List.drop_drop, hdrop6,
      List.drop_left' (length_u32Bytes _)]
  have hlen : (readU16 (leBytes 2 r.payload.length ++ rest)).toNat = r.payload.length := by
    unfold WellFormed frameMaxLen at hr
    exact toNat_readU16_leBytes rest (by omega)
  have hdrop : (requestHeader r ++ rest).drop headerLen = rest :=
    List.drop_left' (length_requestHeader r)
  have hdrop' : (requestHeader r ++ rest).drop (headerLen + r.payload.length) =
      rest.drop r.payload.length := by
    rw [← List.drop_drop, hdrop]
  have hmagic : ¬ ((requestHeader r ++ rest).getD 0 0 ≠ magic0 ∨
      (requestHeader r ++ rest).getD 1 0 ≠ magic1) := by
    simp [requestHeader]
  have hversion : ¬ (requestHeader r ++ rest).getD 2 0 ≠ apiVersion := by simp [requestHeader]
  have htype : ¬ (requestHeader r ++ rest).getD 3 0 ≠ FrameType.request.code := by
    simp [requestHeader]
  have htotal : (requestHeader r ++ rest).length = headerLen + rest.length := by
    rw [List.length_append, length_requestHeader]
  unfold WellFormed at hr
  simp only [parseStep, hdrop4, hdrop6, hdrop10, readU16_u16Bytes, readU32_u32Bytes, hlen, hdrop,
    hdrop', htotal]
  rw [if_neg (by omega), if_neg hmagic, if_neg hversion, if_neg (by omega), if_neg htype]
  by_cases hrest : rest.length < r.payload.length
  · rw [if_pos hrest, if_pos (by omega)]
  · rw [if_neg hrest, if_neg (by omega)]

theorem parseStep_encodeRequest {r : Request} (rest : Bytes) (hr : WellFormed r) :
    parseStep (encodeRequest r ++ rest) = .advance (.request r) rest := by
  rw [encodeRequest, List.append_assoc, parseStep_requestHeader _ hr,
    if_neg (by rw [List.length_append]; omega), List.take_left, List.drop_left]

/-- A proper prefix of a well-formed request frame makes the parser wait. -/
theorem parseStep_prefix {r : Request} {p t more : Bytes} (hr : WellFormed r)
    (hp : p ++ t = encodeRequest r ++ more) (hlt : p.length < (encodeRequest r).length) :
    parseStep p = .wait := by
  by_cases hshort : p.length < headerLen
  · rw [parseStep, if_pos hshort]
  · have htake : p.take headerLen = requestHeader r := by
      have h := congrArg (List.take headerLen) hp
      rwa [List.take_append_of_le_length (by omega), encodeRequest, List.append_assoc,
        List.take_left' (length_requestHeader r)] at h
    have hsplit : p = requestHeader r ++ p.drop headerLen := by
      rw [← htake, List.take_append_drop]
    rw [length_encodeRequest] at hlt
    rw [hsplit, parseStep_requestHeader _ hr, if_pos (by rw [List.length_drop]; omega)]

/-! ## The parse loop on a part of the stream -/

/-- `left` is the part of the next frame that has been received. -/
def Partial (rs : List Request) (left : Bytes) : Prop :=
  match rs with
  | [] => left = []
  | r :: _ => left.length < (encodeRequest r).length

theorem exists_of_append_eq {a b c d : Bytes} (h : a ++ b = c ++ d) (hlen : c.length ≤ a.length) :
    ∃ e, a = c ++ e ∧ e ++ b = d := by
  rcases List.append_eq_append_iff.mp h with ⟨e, rfl, rfl⟩ | ⟨e, rfl, rfl⟩
  · have he : e = [] := by
      rw [List.length_append] at hlen
      exact List.length_eq_zero_iff.mp (by omega)
    exact ⟨[], by simp [he], by simp [he]⟩
  · exact ⟨e, rfl, rfl⟩

/-- A prefix of the stream is some whole frames and a part of the next one. -/
theorem split_prefix {rs : List Request} {b t : Bytes} (h : b ++ t = stream rs) :
    ∃ done rest left, rs = done ++ rest ∧ b = stream done ++ left ∧ left ++ t = stream rest ∧
      Partial rest left := by
  induction rs generalizing b with
  | nil =>
    obtain ⟨rfl, rfl⟩ := List.append_eq_nil_iff.mp h
    exact ⟨[], [], [], rfl, rfl, rfl, rfl⟩
  | cons r rs ih =>
    by_cases hlt : b.length < (encodeRequest r).length
    · exact ⟨[], r :: rs, b, rfl, rfl, h, hlt⟩
    · obtain ⟨e, rfl, he⟩ := exists_of_append_eq h (by omega)
      obtain ⟨done, rest, left, rfl, rfl, hleft, hpart⟩ := ih he
      exact ⟨r :: done, rest, left, rfl, by simp, hleft, hpart⟩

theorem parseFrom_partial {rs : List Request} {left t : Bytes} (hwf : ∀ r ∈ rs, WellFormed r)
    (hpart : Partial rs left) (hleft : left ++ t = stream rs) (fuel : Nat) :
    parseFrom fuel left = ([], left) := by
  cases fuel with
  | zero => rfl
  | succ fuel =>
    have hwait : parseStep left = .wait := by
      cases rs with
      | nil => rw [show left = [] from hpart]; rfl
      | cons r rs => exact parseStep_prefix (hwf r List.mem_cons_self) hleft hpart
    rw [parseFrom, hwait]

/-- The loop hands out the whole frames and keeps the part of the next one. -/
theorem parseFrom_stream {done rest : List Request} {left t : Bytes} {fuel : Nat}
    (hwf : ∀ r ∈ done ++ rest, WellFormed r) (hpart : Partial rest left)
    (hleft : left ++ t = stream rest) (hfuel : done.length ≤ fuel) :
    parseFrom fuel (stream done ++ left) = (done.map .request, left) := by
  induction done generalizing fuel with
  | nil => exact parseFrom_partial hwf hpart hleft fuel
  | cons r done ih =>
    obtain ⟨fuel, rfl⟩ : ∃ n, fuel = n + 1 := ⟨fuel - 1, by simp at hfuel; omega⟩
    have hr := hwf r List.mem_cons_self
    have hrest := ih (fun r' hr' => hwf r' (List.mem_cons_of_mem r hr'))
      (show done.length ≤ fuel by simpa using hfuel)
    rw [stream_cons, List.append_assoc, parseFrom, parseStep_encodeRequest _ hr]
    simp only [hrest, List.map_cons]

theorem length_le_stream (rs : List Request) : rs.length ≤ (stream rs).length := by
  induction rs with
  | nil => exact Nat.le_refl 0
  | cons r rs ih =>
    rw [stream_cons, List.length_append, length_encodeRequest, List.length_cons]
    unfold headerLen
    omega

theorem parseRxBuffer_stream {done rest : List Request} {left t : Bytes}
    (hwf : ∀ r ∈ done ++ rest, WellFormed r) (hpart : Partial rest left)
    (hleft : left ++ t = stream rest) :
    parseRxBuffer (stream done ++ left) = (done.map .request, left) := by
  have hlen := length_le_stream done
  exact parseFrom_stream hwf hpart hleft (by rw [List.length_append]; omega)

/-! ## Which cuts are handed out exactly -/

/-- The bytes received of the frame that is incomplete after `n` bytes of the stream. -/
def pendingLen : List Request → Nat → Nat
  | [], n => n
  | r :: rs, n =>
    if (encodeRequest r).length ≤ n then pendingLen rs (n - (encodeRequest r).length) else n

theorem pendingLen_partial {rs : List Request} {left : Bytes} (h : Partial rs left) :
    pendingLen rs left.length = left.length := by
  cases rs with
  | nil => rfl
  | cons r rs => exact if_neg (Nat.not_le_of_lt h)

theorem pendingLen_append (done rest : List Request) (n : Nat) :
    pendingLen (done ++ rest) ((stream done).length + n) = pendingLen rest n := by
  induction done with
  | nil => simp
  | cons r done ih =>
    have hle : (encodeRequest r).length ≤ (stream (r :: done)).length + n := by
      rw [stream_cons, List.length_append]
      omega
    rw [List.cons_append, pendingLen, if_pos hle, stream_cons, List.length_append, Nat.add_assoc,
      Nat.add_sub_cancel_left, ih]

/-- Every chunk fits into the 2048-byte buffer behind the part of a frame that
is pending before it; `n` bytes of the stream came before the chunks. -/
def Fits (rs : List Request) (n : Nat) (chunks : List Bytes) : Prop :=
  ∀ pre c post, chunks = pre ++ c :: post →
    pendingLen rs (n + pre.flatten.length) + c.length ≤ frameMaxLen

theorem fits_cons {rs : List Request} {n : Nat} {c : Bytes} {cs : List Bytes} :
    Fits rs n (c :: cs) ↔ pendingLen rs n + c.length ≤ frameMaxLen ∧ Fits rs (n + c.length) cs := by
  constructor
  · intro h
    refine ⟨h [] c cs rfl, fun pre d post heq => ?_⟩
    have := h (c :: pre) d post (by rw [heq]; rfl)
    rwa [List.flatten_cons, List.length_append, ← Nat.add_assoc] at this
  · rintro ⟨hc, hcs⟩ pre d post heq
    cases pre with
    | nil =>
      obtain ⟨rfl, rfl⟩ := List.cons.inj heq
      exact hc
    | cons c' pre =>
      obtain ⟨rfl, rfl⟩ := List.cons.inj heq
      rw [List.flatten_cons, List.length_append, ← Nat.add_assoc]
      exact hcs pre d post rfl

theorem fits_append {done rest : List Request} {n : Nat} {cs : List Bytes} :
    Fits (done ++ rest) ((stream done).length + n) cs ↔ Fits rest n cs := by
  simp only [Fits, Nat.add_assoc, pendingLen_append]

/-- A chunk that does not fit is the only thing the receive path reports of it. -/
theorem handleRxChunk_overflow {buffer c : Bytes} (hbuf : buffer.length ≤ frameMaxLen)
    (h : ¬ buffer.length + c.length ≤ frameMaxLen) :
    handleRxChunk buffer c = ([.overflow], []) := by
  rw [handleRxChunk, if_neg (by omega), if_pos (by omega)]

theorem handleRxChunk_fits {buffer c : Bytes} (h : buffer.length + c.length ≤ frameMaxLen)
    (hc : c ≠ []) : handleRxChunk buffer c = parseRxBuffer (buffer ++ c) := by
  have := List.length_pos_of_ne_nil hc
  rw [handleRxChunk, if_neg (by omega), if_neg (by omega)]

/-- From a buffer that holds a part of the next frame, the chunks of the rest of
the stream are handed out frame by frame if and only if all of them fit. -/
theorem feedChunks_eq_iff {rs : List Request} {buffer : Bytes} {chunks : List Bytes}
    (hwf : ∀ r ∈ rs, WellFormed r) (hpart : Partial rs buffer)
    (hcut : buffer ++ chunks.flatten = stream rs) (hne : ∀ c ∈ chunks, c ≠ []) :
    (feedChunks buffer chunks).1 = rs.map .request ↔ Fits rs buffer.length chunks := by
  induction chunks generalizing rs buffer with
  | nil =>
    have hrs : rs = [] := by
      cases rs with
      | nil => rfl
      | cons r rs =>
        have hlen := congrArg List.length hcut
        simp only [List.flatten_nil, List.append_nil, stream_cons, List.length_append] at hlen
        have hlt : buffer.length < (encodeRequest r).length := hpart
        omega
    subst hrs
    simp [feedChunks, Fits]
  | cons c cs ih =>
    rw [fits_cons, pendingLen_partial hpart]
    have hc := hne c List.mem_cons_self
    by_cases hfit : buffer.length + c.length ≤ frameMaxLen
    · rw [List.flatten_cons, ← List.append_assoc] at hcut
      obtain ⟨done, rest, left, rfl, hb, hleft, hpart'⟩ := split_prefix hcut
      have hparse : handleRxChunk buffer c = (done.map .request, left) := by
        rw [handleRxChunk_fits hfit hc, hb]
        exact parseRxBuffer_stream hwf hpart' hleft
      have hlen : buffer.length + c.length = (stream done).length + left.length := by
        rw [← List.length_append, hb, List.length_append]
      have hih := ih (fun r hr => hwf r (List.mem_append_right done hr)) hpart' hleft
        (fun d hd => hne d (List.mem_cons_of_mem c hd))
      simp only [feedChunks, hparse, List.map_append, List.append_cancel_left_eq]
      rw [hlen, fits_append, hih]
      exact (and_iff_right (hlen ▸ hfit)).symm
    · refine iff_of_false (fun h => ?_) (fun h => hfit h.1)
      have hbuf : buffer.length ≤ frameMaxLen := by
        cases rs with
        | nil => rw [show buffer = [] from hpart]; exact Nat.zero_le _
        | cons r rs =>
          have hlt : buffer.length < (encodeRequest r).length := hpart
          have hr := hwf r List.mem_cons_self
          rw [length_encodeRequest] at hlt
          unfold WellFormed at hr
          omega
      simp only [feedChunks, handleRxChunk_overflow hbuf hfit] at h
      cases rs with
      | nil => cases h
      | cons r rs => cases h

/-- **Exactly which cuts are harmless.** A stream of well-formed request frames,
cut into non-empty chunks, is handed to `companion_api_handle_request` frame by
frame and without an error if and only if every chunk fits into the buffer
behind the part of a frame that is pending before it. -/
theorem chunking_exact_iff {rs : List Request} {chunks : List Bytes}
    (hwf : ∀ r ∈ rs, WellFormed r) (hcut : chunks.flatten = stream rs)
    (hlen : ∀ c ∈ chunks, 1 ≤ c.length ∧ c.length ≤ 512) :
    (feedChunks [] chunks).1 = rs.map .request ↔
      ∀ pre c post, chunks = pre ++ c :: post →
        pendingLen rs pre.flatten.length + c.length ≤ 2048 := by
  have hpart : Partial rs [] := by
    cases rs with
    | nil => rfl
    | cons r rs =>
      change 0 < (encodeRequest r).length
      rw [length_encodeRequest]
      unfold headerLen
      omega
  have hne : ∀ c ∈ chunks, c ≠ [] := fun c hc => List.ne_nil_of_length_pos (hlen c hc).1
  rw [feedChunks_eq_iff hwf hpart hcut hne]
  simp only [Fits, List.length_nil, Nat.zero_add, frameMaxLen]

/-- The bytes cut after the given lengths. -/
def cutAt : Bytes → List Nat → List Bytes
  | b, [] => [b]
  | b, n :: ns => b.take n :: cutAt (b.drop n) ns

theorem flatten_cutAt (b : Bytes) (ns : List Nat) : (cutAt b ns).flatten = b := by
  induction ns generalizing b with
  | nil => simp [cutAt]
  | cons n ns ih => rw [cutAt, List.flatten_cons, ih, List.take_append_drop]

/-- A hello whose frame arrives in two chunks. -/
theorem chunking_exact_iff_hello :
    (feedChunks [] (cutAt (stream [⟨0x0001, 7, []⟩]) [5])).1 = [.request ⟨0x0001, 7, []⟩] ↔
      ∀ pre c post, cutAt (stream [⟨0x0001, 7, []⟩]) [5] = pre ++ c :: post →
        pendingLen [⟨0x0001, 7, []⟩] pre.flatten.length + c.length ≤ 2048 :=
  @chunking_exact_iff [⟨0x0001, 7, []⟩] _ (by decide) (flatten_cutAt _ _) (by decide)

/-- A ping of the greatest length. -/
def longPing : Request := ⟨0x0003, 1, List.replicate 2036 0⟩

/-- The ping and a hello behind it. -/
def pipelined : List Request := [longPing, ⟨0x0001, 2, []⟩]

theorem length_longPing : longPing.payload.length = 2036 := List.length_replicate

theorem length_stream_pipelined : (stream pipelined).length = 2060 := by
  simp [pipelined, length_encodeRequest, length_longPing, headerLen]

/-- The last byte of the ping arrives in one chunk with the hello: 2047 bytes
are buffered, 13 arrive, and both frames are lost. -/
theorem chunking_not_exact :
    ¬ ∀ (rs : List Request) (chunks : List Bytes), (∀ r ∈ rs, WellFormed r) →
      chunks.flatten = stream rs → (∀ c ∈ chunks, 1 ≤ c.length ∧ c.length ≤ 512) →
      (feedChunks [] chunks).1 = rs.map .request := by
  intro h
  have hwf : ∀ r ∈ pipelined, WellFormed r := by
    simp [pipelined, WellFormed, length_longPing, headerLen, frameMaxLen]
  have hlen : ∀ c ∈ cutAt (stream pipelined) [512, 512, 512, 511],
      1 ≤ c.length ∧ c.length ≤ 512 := by
    simp [cutAt, length_stream_pipelined]
  have hpart : Partial pipelined [] := by
    simp [pipelined, Partial, length_encodeRequest, length_longPing, headerLen]
  have hne : ∀ c ∈ cutAt (stream pipelined) [512, 512, 512, 511], c ≠ [] :=
    fun c hc => List.ne_nil_of_length_pos (hlen c hc).1
  have hfits := (feedChunks_eq_iff hwf hpart (flatten_cutAt _ _) hne).mp
    (h pipelined _ hwf (flatten_cutAt _ _) hlen)
  have hlast := hfits (cutAt (stream pipelined) [512, 512, 512, 511] |>.take 4) _ [] rfl
  simp [cutAt, pendingLen, pipelined, length_encodeRequest, length_longPing, headerLen,
    frameMaxLen] at hlast

end Jukeboy.CompanionApi.Chunking
