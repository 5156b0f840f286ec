import Jukeboy.Bootloader.Download

/-! # Uploading an image

An image is cut into blocks, and each block is written where it belongs by its
number. What a run leaves in memory depends only on which blocks were acknowledged:
not on their order, on how often they were sent, or on what was sent between them. The
image must not lie over the loader's own variables. -/
namespace Jukeboy.Bootloader.Upload

open Jukeboy.Base Jukeboy.Base.Slip Jukeboy.Base.LittleEndian
open Jukeboy.Bootloader.SlipReceive Jukeboy.Bootloader.Download

/-! ## What the host sends -/

/-- Block `i` of the image. -/
def block (image : Bytes) (b i : Nat) : Bytes := (image.drop (i * b)).take b

/-- A `MEM_DATA` request for block `i`. -/
def blockRequest (image : Bytes) (b i : Nat) (chk : UInt32) : Bytes :=
  memDataRequest chk (.ofNat (block image b i).length) (.ofNat i) (block image b i)

/-- The packet is not taken for a request, asks for nothing but an answer, carries
data whose checksum fails, or is a `MEM_END` that does not end the loop. -/
def Harmless (q : Bytes) : Prop :=
  let p := packetOf recvBufSize q
  let v := view p
  accepted v p = false ∨ byteAt v 1 = cmdSync ∨ byteAt v 1 = cmdReadReg ∨
    byteAt v 1 = cmdMemData ∧
      (size v < 16 ∨ Refused p) ∨
    byteAt v 1 = cmdMemEnd ∧ (size v < 8 ∨ le32 v 8 ≠ 0 ∨ le32 v 12 = 0)

/-- The packet is a `MEM_END` with execute 0 and the entry point, which is not zero. -/
def Ends (entry : UInt32) (q : Bytes) : Prop :=
  let p := packetOf recvBufSize q
  let v := view p
  accepted v p = true ∧ byteAt v 1 = cmdMemEnd ∧ 8 ≤ size v ∧ le32 v 8 = 0 ∧ le32 v 12 = entry ∧
    entry ≠ 0

/-- A packet sent between `MEM_BEGIN` and the `MEM_END` that ends the loop: a block,
with any checksum word, or one that does no harm. -/
def Sent (image : Bytes) (b : Nat) (q : Bytes) : Prop :=
  (∃ i chk, i * b < image.length ∧ q = blockRequest image b i chk) ∨ Harmless q

/-- Block `i` is acknowledged with success somewhere among the packets. -/
def Acknowledged (l : Layout) (image : Bytes) (b : Nat) (start : State) (middle : List Bytes) (i : Nat) : Prop :=
  ∃ before chk after, middle = before ++ blockRequest image b i chk :: after ∧
    let s := (runPackets l (before.map (packetOf recvBufSize)) start).1
    (turn l (packetOf recvBufSize (blockRequest image b i chk)) s).1.sent =
      s.sent ++ [.ok cmdMemData 0]

/-! ## The packets of an upload -/

variable {l : Layout} {image : Bytes} {b i : Nat}

theorem length_block_le (image : Bytes) (b i : Nat) : (block image b i).length ≤ b := by
  unfold block
  rw [List.length_take]
  exact Nat.min_le_left ..

/-- What the loop reads of the request for a block. -/
structure BlockHeader (image : Bytes) (b i : Nat) (chk : UInt32) (p : Packet) : Prop where
  isMemData : IsMemData p
  covered : Covered p
  data : dataBytes (view p) = block image b i
  len : (le32 (view p) 8).toNat = (block image b i).length
  seq : le32 (view p) 12 = .ofNat i
  chk : chkOf (view p) = (chk &&& 0xFF).toUInt8

theorem header_blockRequest (image : Bytes) (hfit : 24 + b ≤ recvBufSize) (i : Nat) (chk : UInt32) :
    BlockHeader image b i chk (packetOf recvBufSize (blockRequest image b i chk)) := by
  have hblock := length_block_le image b i
  generalize hlen : (block image b i).length = len at hblock
  let data := word (.ofNat len) ++ word (.ofNat i) ++ word 0 ++ word 0 ++ block image b i
  have hreq : blockRequest image b i chk = request cmdMemData chk data := by
    rw [blockRequest, memDataRequest, hlen]
  have hdata : data.length = 16 + len := by
    simp only [data, word, List.length_append, length_leBytes, hlen]
  have hin : 8 + data.length ≤ recvBufSize := by omega
  have hq : (request cmdMemData chk data).length ≤ recvBufSize := by
    rw [length_request]
    exact hin
  obtain ⟨haccepted, hop, hsize, hchk⟩ := header_request cmdMemData chk hin
  have hlenWord : le32 (view (packetOf recvBufSize (request cmdMemData chk data))) 8 = .ofNat len :=
    le32_request cmdMemData chk 0 (word (.ofNat i) ++ word 0 ++ word 0 ++ block image b i) hin
      (by simp [data])
  have hseq : le32 (view (packetOf recvBufSize (request cmdMemData chk data))) 12 = .ofNat i := by
    refine le32_request cmdMemData chk 4 (word 0 ++ word 0 ++ block image b i) hin ?_
    simp only [data, List.append_assoc]
    exact List.drop_left' (length_leBytes 4 _)
  have hnat : (UInt32.ofNat len).toNat = len := by
    rw [UInt32.toNat_ofNat']
    exact Nat.mod_eq_of_lt (by unfold recvBufSize at hfit; omega)
  rw [hreq]
  refine ⟨⟨haccepted, hop⟩, ⟨?_, ?_⟩, ?_, by rw [hlenWord, hnat, hlen], hseq, ?_⟩
  · omega
  · rw [hlenWord, hnat]
    omega
  · rw [dataBytes, hlenWord, hnat, view_packetOf hq]
    have hdrop : (request cmdMemData chk data).drop 24 = block image b i := by
      rw [drop_request cmdMemData chk data 16]
      exact List.drop_left' (by simp [word])
    dsimp only
    rw [hdrop, ← hlen, List.take_length]
  · rw [chkOf, hchk]

/-! ## Memory with some of the blocks written -/

/-- The memory once the blocks of a list are written over it. -/
def uploaded (image : Bytes) (b : Nat) (base : UInt32) (memory : Memory) (done : List Nat) : Memory :=
  fun a =>
    let k := a.toNat - base.toNat
    if base.toNat ≤ a.toNat ∧ k < image.length ∧ k / b ∈ done then image.getD k 0 else memory a

variable {base : UInt32} {memory : Memory} {done : List Nat}

theorem uploaded_nil : uploaded image b base memory [] = memory := by
  funext a
  simp [uploaded]

/-- The blocks of an image that cover it. -/
theorem uploaded_of_all (hdone : ∀ i, i * b < image.length → i ∈ done) (a : UInt32) :
    uploaded image b base memory done a =
      if base.toNat ≤ a.toNat ∧ a.toNat - base.toNat < image.length then
        image.getD (a.toNat - base.toNat) 0
      else memory a := by
  have hall : ∀ k, k < image.length → k / b ∈ done := fun k hk =>
    hdone _ (lt_of_le_of_lt (Nat.div_mul_le_self k b) hk)
  unfold uploaded
  dsimp only
  by_cases hin : base.toNat ≤ a.toNat ∧ a.toNat - base.toNat < image.length
  · rw [if_pos hin, if_pos ⟨hin.1, hin.2, hall _ hin.2⟩]
  · rw [if_neg hin, if_neg fun h => hin ⟨h.1, h.2.1⟩]

theorem div_eq_iff_between {k : Nat} (hb : 0 < b) : k / b = i ↔ i * b ≤ k ∧ k < i * b + b := by
  rw [← Nat.succ_mul, ← Nat.le_div_iff_mul_le hb, ← Nat.div_lt_iff_lt_mul hb]
  omega

theorem getD_block {k : Nat} (hlow : i * b ≤ k) (hhigh : k < i * b + b) :
    (block image b i).getD (k - i * b) 0 = image.getD k 0 := by
  have hk : i * b + (k - i * b) = k := by omega
  have hlt : k - i * b < b := by omega
  unfold block
  rw [List.getD_eq_getElem?_getD, List.getD_eq_getElem?_getD, List.getElem?_take_of_lt hlt,
    List.getElem?_drop, hk]

/-- The address of a block, computed with 32 bits. -/
theorem toNat_dest (hfit : base.toNat + image.length < 2 ^ 32) (hi : i * b < image.length) :
    (base + UInt32.ofNat i * UInt32.ofNat b).toNat = base.toNat + i * b := by
  have hmul : (UInt32.ofNat i * UInt32.ofNat b).toNat = i * b := by
    rw [UInt32.toNat_mul, UInt32.toNat_ofNat', UInt32.toNat_ofNat', ← Nat.mul_mod]
    exact Nat.mod_eq_of_lt (by omega)
  rw [UInt32.toNat_add, hmul]
  exact Nat.mod_eq_of_lt (by omega)

/-- Writing a block where its number says writes the part of the image it is. -/
theorem write_block (hb : 0 < b) (hfit : base.toNat + image.length < 2 ^ 32)
    (hi : i * b < image.length) :
    (uploaded image b base memory done).write (base + .ofNat i * .ofNat b) (block image b i) =
      uploaded image b base memory (i :: done) := by
  have hdest := toNat_dest hfit hi
  have hlen : (block image b i).length = min b (image.length - i * b) := by
    rw [block, List.length_take, List.length_drop]
  funext a
  rw [write_eq (by omega), hdest, hlen]
  generalize hk : a.toNat - base.toNat = k
  by_cases hin : base.toNat ≤ a.toNat ∧ k < image.length ∧ k / b = i
  · obtain ⟨hbase, hlt, hblock⟩ := hin
    obtain ⟨hlow, hhigh⟩ := (div_eq_iff_between hb).mp hblock
    have hoff : a.toNat - (base.toNat + i * b) = k - i * b := by omega
    have hmem : k / b ∈ i :: done := by rw [hblock]; exact List.mem_cons_self
    rw [if_pos (by omega), hoff, getD_block hlow hhigh, uploaded, hk, if_pos ⟨hbase, hlt, hmem⟩]
  · have hout : ¬ (base.toNat + i * b ≤ a.toNat ∧
        a.toNat < base.toNat + i * b + min b (image.length - i * b)) := fun h =>
      hin ⟨by omega, by omega, (div_eq_iff_between hb).mpr ⟨by omega, by omega⟩⟩
    have hiff : base.toNat ≤ a.toNat ∧ k < image.length ∧ k / b ∈ done ↔
        base.toNat ≤ a.toNat ∧ k < image.length ∧ k / b ∈ i :: done := by
      rw [List.mem_cons]
      exact ⟨fun h => ⟨h.1, h.2.1, .inr h.2.2⟩, fun h => ⟨h.1, h.2.1,
        h.2.2.resolve_left fun heq => hin ⟨h.1, h.2.1, heq⟩⟩⟩
    rw [if_neg hout]
    unfold uploaded
    simp only [hk, hiff]

/-! ## One packet -/

variable {q : Bytes} {p : Packet} {s : State}

/-- The turn leaves the memory but the loader's variables, and the region, as they were, and
the loop goes on. -/
structure Unchanged (l : Layout) (s : State) (r : State × Option UInt32) : Prop where
  memory : ∀ a, ¬ l.Own a → r.1.memory a = s.memory a
  region : r.1.region l = s.region l
  result : r.2 = none

/-- The turn of an accepted packet that writes nothing. -/
theorem unchanged_turn {t : State} (hp : Stored p) (haccepted : accepted (view p) p = true)
    (hop : byteAt (view p) 1 ≠ cmdMemBegin) (hwrites : writes (s.region l) p = none)
    (hcmd : command l ((s.receive l p).bytes l) (s.receive l p) = (t, none))
    (hmemory : t.memory = (s.receive l p).memory) : Unchanged l s (turn l p s) := by
  have hspares : Spares l (s.region l) p := by
    intro dest len h
    rw [hwrites] at h
    cases h
  have hregion : (turn l p s).1.region l = s.region l := by
    rw [region_turn hp s hspares, begun, if_neg fun h => hop h.2.1]
  refine ⟨fun a ha => ?_, hregion, ?_⟩
  · rw [turn_of_accepted hp haccepted, hcmd]
    exact (congrFun hmemory a).trans (memory_receive hp s ha)
  · rw [turn_of_accepted hp haccepted, hcmd]

/-- A packet that is no `WRITE_REG` and no `MEM_DATA` whose checksum holds. -/
theorem writes_none {region : UInt32 × UInt32} (hreg : byteAt (view p) 1 ≠ cmdWriteReg)
    (hdata : byteAt (view p) 1 = cmdMemData → size (view p) < 16 ∨ Refused p) :
    writes region p = none := by
  by_cases h : accepted (view p) p = true ∧ 16 ≤ size (view p)
  · have hnot : ¬ (byteAt (view p) 1 = cmdMemData ∧ ¬ Refused p) := by
      rintro ⟨hop, hrefused⟩
      exact (hdata hop).elim (not_lt.mpr h.2) hrefused
    rw [writes, if_pos h, if_neg hreg, if_neg hnot]
  · rw [writes, if_neg h]

theorem turn_harmless (h : Harmless q) (s : State) :
    Unchanged l s (turn l (packetOf recvBufSize q) s) := by
  have hp := stored_packetOf q
  unfold Harmless at h
  generalize packetOf recvBufSize q = p at h hp ⊢
  dsimp only at h
  cases haccepted : accepted (view p) p with
  | false =>
    rw [turn_of_not_accepted hp haccepted]
    exact ⟨fun a ha => memory_receive hp s ha, region_receive hp s, rfl⟩
  | true =>
    have hagree := hp.agree (l := l) haccepted s
    have hop : byteAt ((s.receive l p).bytes l) 1 = byteAt (view p) 1 := hagree.byteAt (by omega)
    rcases h with h | h | h | ⟨h, hbad⟩ | ⟨h, hend⟩
    · rw [haccepted] at h
      cases h
    · have hcmd := command_sync (l := l) (hop.trans h) (s.receive l p)
      exact unchanged_turn hp haccepted (by rw [h]; decide)
        (writes_none (by rw [h]; decide) fun hdata => absurd (h.symm.trans hdata) (by decide)) hcmd rfl
    · have hcmd := command_readReg (l := l) (hop.trans h) (s.receive l p)
      exact unchanged_turn hp haccepted (by rw [h]; decide)
        (writes_none (by rw [h]; decide) fun hdata => absurd (h.symm.trans hdata) (by decide)) hcmd
        (memory_readReg _ _)
    · have hcmd := command_memData (l := l) (hop.trans h) (s.receive l p)
      have hanswer := answered_turn (l := l) hp ⟨haccepted, h⟩ s
      rw [turn_memData hp ⟨haccepted, h⟩] at hanswer
      refine unchanged_turn hp haccepted (by rw [h]; decide)
        (writes_none (by rw [h]; decide) fun _ => hbad) hcmd ?_
      rcases hbad with hshort | hrefused
      · exact (hanswer.short hshort).2
      · exact (hanswer.refused hrefused).2
    · have hstays : size ((s.receive l p).bytes l) < 8 ∨ le32 ((s.receive l p).bytes l) 8 ≠ 0 ∨
          le32 ((s.receive l p).bytes l) 12 = 0 := by
        by_cases hshort : size (view p) < 8
        · exact .inl (by rw [hagree.size (by omega)]; exact hshort)
        · rw [hagree.le32 (by omega), hagree.le32 (by omega)]
          exact .inr (hend.resolve_left hshort)
      have hcmd : command l ((s.receive l p).bytes l) (s.receive l p) =
          ((memEnd ((s.receive l p).bytes l) (s.receive l p)).1, none) :=
        (command_memEnd (hop.trans h) _).trans (Prod.ext rfl (result_memEnd hstays _))
      exact unchanged_turn hp haccepted (by rw [h]; decide)
        (writes_none (by rw [h]; decide) fun hdata => absurd (h.symm.trans hdata) (by decide)) hcmd
        (memory_memEnd _ _)

/-! ## A block -/

/-- The checksum word is the one of block `i`. -/
def Matches (image : Bytes) (b i : Nat) (chk : UInt32) : Prop :=
  dlChecksum (block image b i) = (chk &&& 0xFF).toUInt8

/-- The blocks written while packets are sent. -/
structure Progress (l : Layout) (image : Bytes) (b : Nat) (base : UInt32) (memory : Memory)
    (done : List Nat) (s : State) : Prop where
  memory : ∀ a, ¬ l.Own a → s.memory a = uploaded image b base memory done a
  region : s.region l = (base, .ofNat b)

variable {chk : UInt32}

/-- A block lies where the image does. -/
theorem avoids_block (hown : l.Avoids base image.length)
    (hfit : base.toNat + image.length < 2 ^ 32) (hi : i * b < image.length) :
    l.Avoids (base + .ofNat i * .ofNat b) (block image b i).length := by
  have hdest := toNat_dest hfit hi
  have hlen : (block image b i).length = min b (image.length - i * b) := by
    rw [block, List.length_take, List.length_drop]
  intro a hin
  rw [within_iff (by omega), hdest] at hin
  exact hown a ((within_iff (by omega) a).mpr ⟨by omega, by omega⟩)

/-- Memory but the loader's variables, after a write to memory that is the same there. -/
theorem write_congr {m m' : Memory} {dest : UInt32} {bytes : Bytes} {a : UInt32}
    (h : m a = m' a) : m.write dest bytes a = m'.write dest bytes a := by
  unfold Memory.write
  rw [h]

theorem turn_block (chk : UInt32) (hb : 0 < b) (hbuf : 24 + b ≤ recvBufSize)
    (hfit : base.toNat + image.length < 2 ^ 32) (hown : l.Avoids base image.length)
    (hi : i * b < image.length) (hs : Progress l image b base memory done s) :
    let r := turn l (packetOf recvBufSize (blockRequest image b i chk)) s
    r.2 = none ∧
      (Matches image b i chk ∧ Progress l image b base memory (i :: done) r.1 ∨
        ¬ Matches image b i chk ∧ Progress l image b base memory done r.1 ∧
          r.1.sent = s.sent ++ [.err cmdMemData romErrChecksum]) := by
  have header := header_blockRequest image hbuf i chk
  have hp := stored_packetOf (blockRequest image b i chk)
  generalize packetOf recvBufSize (blockRequest image b i chk) = p at header hp ⊢
  dsimp only
  have hanswer := answered_turn (l := l) hp header.isMemData s
  have hregion : (turn l p s).1.region l = (base, .ofNat b) := by
    have hop : byteAt (view p) 1 ≠ cmdMemBegin := by
      rw [header.isMemData.2]
      decide
    have hspares : Spares l (s.region l) p := by
      intro dest len h
      have hreg : ¬ cmdMemData = cmdWriteReg := by decide
      rw [writes, if_pos ⟨header.isMemData.1, header.covered.1⟩, header.isMemData.2, if_neg hreg]
        at h
      split at h
      · obtain ⟨rfl, rfl⟩ := Prod.mk.inj (Option.some.inj h)
        rw [hs.region, header.seq, header.len]
        exact avoids_block hown hfit hi
      · cases h
    rw [region_turn hp s hspares, begun, if_neg fun h => hop h.2.1, hs.region]
  refine ⟨by rw [turn_memData hp header.isMemData], ?_⟩
  by_cases hgood : Matches image b i chk
  · have hchk : dlChecksum (dataBytes (view p)) = chkOf (view p) := by
      rw [header.data, header.chk]
      exact hgood
    have hwritten := (hanswer.written header.covered hchk).2
    rw [hs.region, header.seq, header.data] at hwritten
    refine .inl ⟨hgood, fun a ha => ?_, hregion⟩
    rw [hwritten, ← write_block hb hfit hi]
    exact write_congr ((memory_receive hp s ha).trans (hs.memory a ha))
  · have hrefused : Refused p := by
      refine ⟨header.covered, ?_⟩
      rw [header.data, header.chk]
      exact hgood
    obtain ⟨hsent, hmemory⟩ := hanswer.refused hrefused
    refine .inr ⟨hgood, ⟨fun a ha => ?_, hregion⟩, hsent⟩
    rw [hmemory]
    exact (memory_receive hp s ha).trans (hs.memory a ha)

/-- A request says which block it is for, and with which checksum. -/
theorem blockRequest_injective {j : Nat} {chk' : UInt32} (hb : 0 < b) (hbuf : 24 + b ≤ recvBufSize)
    (hfit : base.toNat + image.length < 2 ^ 32) (hi : i * b < image.length)
    (hj : j * b < image.length) (h : blockRequest image b i chk = blockRequest image b j chk') :
    i = j ∧ (Matches image b i chk ↔ Matches image b j chk') := by
  have hseq := (header_blockRequest image hbuf i chk).seq
  have hchk := (header_blockRequest image hbuf i chk).chk
  rw [h, (header_blockRequest image hbuf j chk').seq] at hseq
  rw [h, (header_blockRequest image hbuf j chk').chk] at hchk
  have hile : i ≤ i * b := Nat.le_mul_of_pos_right i hb
  have hjle : j ≤ j * b := Nat.le_mul_of_pos_right j hb
  have hnat := congrArg UInt32.toNat hseq
  rw [UInt32.toNat_ofNat', UInt32.toNat_ofNat', Nat.mod_eq_of_lt (by omega),
    Nat.mod_eq_of_lt (by omega)] at hnat
  subst hnat
  refine ⟨rfl, ?_⟩
  unfold Matches
  rw [hchk]

/-! ## The packets between the first and the last -/

/-- One packet: no block is lost, and one whose checksum matches is written. -/
theorem turn_sent {q : Bytes} (hb : 0 < b) (hbuf : 24 + b ≤ recvBufSize)
    (hfit : base.toNat + image.length < 2 ^ 32) (hown : l.Avoids base image.length)
    (hq : Sent image b q) (hs : Progress l image b base memory done s) :
    let r := turn l (packetOf recvBufSize q) s
    r.2 = none ∧ ∃ written, Progress l image b base memory written r.1 ∧ done ⊆ written ∧
      ∀ i chk, i * b < image.length → blockRequest image b i chk = q →
        Matches image b i chk → i ∈ written := by
  by_cases hblock : ∃ i chk, i * b < image.length ∧ blockRequest image b i chk = q
  · obtain ⟨i, chk, hi, rfl⟩ := hblock
    obtain ⟨hnone, hturn⟩ := turn_block chk hb hbuf hfit hown hi hs
    refine ⟨hnone, ?_⟩
    rcases hturn with ⟨hgood, ht⟩ | ⟨hbad, ht, -⟩
    · refine ⟨i :: done, ht, List.subset_cons_self i done, ?_⟩
      intro j chk' hj heq _
      rw [(blockRequest_injective hb hbuf hfit hj hi heq).1]
      exact List.mem_cons_self
    · refine ⟨done, ht, List.Subset.refl done, ?_⟩
      intro j chk' hj heq hmatch
      exact absurd ((blockRequest_injective hb hbuf hfit hj hi heq).2.mp hmatch) hbad
  · have hharmless : Harmless q := hq.resolve_left fun ⟨i, chk, hi, heq⟩ =>
      hblock ⟨i, chk, hi, heq.symm⟩
    obtain ⟨hmemory, hregion, hnone⟩ := turn_harmless (l := l) hharmless s
    refine ⟨hnone, done, ⟨fun a ha => (hmemory a ha).trans (hs.memory a ha), hregion.trans hs.region⟩,
      List.Subset.refl done, ?_⟩
    intro i chk hi heq _
    exact absurd ⟨i, chk, hi, heq⟩ hblock

/-- Blocks sent with a checksum that matches end up written, whatever surrounds them. -/
theorem run_middle {middle : List Bytes} (hb : 0 < b) (hbuf : 24 + b ≤ recvBufSize)
    (hfit : base.toNat + image.length < 2 ^ 32) (hown : l.Avoids base image.length)
    (hsent : ∀ q ∈ middle, Sent image b q) (hs : Progress l image b base memory done s) :
    let r := runPackets l (middle.map (packetOf recvBufSize)) s
    r.2 = none ∧ ∃ written, Progress l image b base memory written r.1 ∧ done ⊆ written ∧
      ∀ i chk, i * b < image.length → blockRequest image b i chk ∈ middle →
        Matches image b i chk → i ∈ written := by
  induction middle generalizing done s with
  | nil => exact ⟨rfl, done, hs, List.Subset.refl done, fun _ _ _ h => by cases h⟩
  | cons q middle ih =>
    obtain ⟨hnone, now, hnow, hsub, hhead⟩ := turn_sent hb hbuf hfit hown (hsent q List.mem_cons_self) hs
    rw [List.map_cons, runPackets]
    generalize turn l (packetOf recvBufSize q) s = r at hnone hnow ⊢
    obtain ⟨t, entry⟩ := r
    cases hnone
    dsimp only
    obtain ⟨hrun, written, hfinal, hkept, htail⟩ :=
      ih (fun r hr => hsent r (List.mem_cons_of_mem q hr)) hnow
    refine ⟨hrun, written, hfinal, List.Subset.trans hsub hkept, ?_⟩
    intro i chk hi hmem hmatch
    rcases List.mem_cons.mp hmem with heq | hmem
    · exact hkept (hhead i chk hi heq hmatch)
    · exact htail i chk hi hmem hmatch

/-- A block acknowledged with success was sent with a checksum that matches. -/
theorem Acknowledged.matches {middle : List Bytes} (hb : 0 < b) (hbuf : 24 + b ≤ recvBufSize)
    (hfit : base.toNat + image.length < 2 ^ 32) (hown : l.Avoids base image.length)
    (hsent : ∀ q ∈ middle, Sent image b q) (hs : Progress l image b base memory done s) (hi : i * b < image.length)
    (h : Acknowledged l image b s middle i) :
    ∃ chk, blockRequest image b i chk ∈ middle ∧ Matches image b i chk := by
  obtain ⟨before, chk, after, rfl, hok⟩ := h
  refine ⟨chk, List.mem_append_right before List.mem_cons_self, ?_⟩
  obtain ⟨-, written, hbefore, -, -⟩ :=
    run_middle hb hbuf hfit hown (fun q hq => hsent q (List.mem_append_left _ hq)) hs
  obtain ⟨-, hturn⟩ := turn_block chk hb hbuf hfit hown hi hbefore
  rcases hturn with ⟨hgood, -⟩ | ⟨-, -, hrefused⟩
  · exact hgood
  · rw [hok] at hrefused
    have heq := List.append_cancel_left hrefused
    exact absurd heq (by decide)

/-! ## The first packet and the last -/

variable {entry : UInt32}

theorem turn_memBeginRequest (total blocks blksz base : UInt32) (s : State) :
    let r := turn l (packetOf recvBufSize (memBeginRequest total blocks blksz base)) s
    r.2 = none ∧ (∀ a, ¬ l.Own a → r.1.memory a = s.memory a) ∧ r.1.region l = (base, blksz) := by
  let data := word total ++ word blocks ++ word blksz ++ word base
  have hdata : data.length = 16 := by simp [data, word]
  have hin : 8 + data.length ≤ recvBufSize := by
    rw [hdata]
    decide
  have hp := stored_packetOf (request cmdMemBegin 0 data)
  have header := header_request cmdMemBegin 0 hin
  have hblksz : le32 (view (packetOf recvBufSize (request cmdMemBegin 0 data))) 16 = blksz := by
    refine le32_request cmdMemBegin 0 8 (word base) hin ?_
    have hsplit : data = (word total ++ word blocks) ++ (word blksz ++ word base) :=
      List.append_assoc ..
    rw [hsplit]
    exact List.drop_left' (by simp [word])
  have hbase : le32 (view (packetOf recvBufSize (request cmdMemBegin 0 data))) 20 = base := by
    refine le32_request cmdMemBegin 0 12 [] hin ?_
    rw [List.append_nil]
    exact List.drop_left' (by simp [word])
  change let r := turn l (packetOf recvBufSize (request cmdMemBegin 0 data)) s
    r.2 = none ∧ (∀ a, ¬ l.Own a → r.1.memory a = s.memory a) ∧ r.1.region l = (base, blksz)
  generalize packetOf recvBufSize (request cmdMemBegin 0 data) = p at *
  have hop : byteAt ((s.receive l p).bytes l) 1 = cmdMemBegin :=
    ((hp.agree (l := l) header.accepted s).byteAt (by omega)).trans header.op
  have hturn : turn l p s = (memBegin l ((s.receive l p).bytes l) (s.receive l p), none) := by
    rw [turn_of_accepted hp header.accepted, command_memBegin hop]
  have hspares : Spares l (s.region l) p := by
    intro dest len h
    rw [writes_none (by rw [header.op]; decide) fun hdata =>
      absurd (header.op.symm.trans hdata) (by decide)] at h
    cases h
  have hregion := region_turn hp s hspares
  rw [begun, if_pos ⟨header.accepted, header.op, by rw [header.size, hdata]⟩, hbase, hblksz]
    at hregion
  refine ⟨?_, ?_, hregion⟩
  · rw [hturn]
  · intro a ha
    rw [hturn]
    exact (memory_memBegin _ _ ha).trans (memory_receive hp s ha)

theorem turn_ends (h : Ends entry q) (s : State) :
    let r := turn l (packetOf recvBufSize q) s
    r.2 = some entry ∧ ∀ a, ¬ l.Own a → r.1.memory a = s.memory a := by
  have hp := stored_packetOf q
  unfold Ends at h
  generalize packetOf recvBufSize q = p at h hp ⊢
  obtain ⟨haccepted, hop, hlong, hexecute, hword, hentry⟩ := h
  have hagree := hp.agree (l := l) haccepted s
  rw [turn_of_accepted hp haccepted, command_memEnd ((hagree.byteAt (by omega)).trans hop)]
  refine ⟨?_, fun a ha => ?_⟩
  swap
  · exact (congrFun (memory_memEnd _ _) a).trans (memory_receive hp s ha)
  have hlong' : ¬ size ((s.receive l p).bytes l) < 8 := by
    rw [hagree.size (by omega)]
    exact not_lt.mpr hlong
  rw [memEnd, if_neg hlong']
  dsimp only
  rw [hagree.le32 (by omega), hagree.le32 (by omega), hexecute, hword]
  exact if_pos ⟨rfl, hentry⟩

/-! ## The whole run -/

/-- The run from `MEM_BEGIN` to the `MEM_END` that ends it, one packet after the other. -/
theorem runPackets_upload {begin last : Packet} {middle more : List Packet}
    (hbegin : (turn l begin s).2 = none) (hmiddle : (runPackets l middle (turn l begin s).1).2 = none)
    (hlast : (turn l last (runPackets l middle (turn l begin s).1).1).2 = some entry) :
    runPackets l (begin :: middle ++ last :: more) s =
      turn l last (runPackets l middle (turn l begin s).1).1 := by
  rw [List.cons_append, runPackets]
  generalize turn l begin s = r at hbegin hmiddle hlast ⊢
  obtain ⟨t, result⟩ := r
  cases hbegin
  dsimp only at hmiddle hlast ⊢
  rw [runPackets_append middle _ t hmiddle, runPackets]
  generalize turn l last (runPackets l middle t).1 = r at hlast ⊢
  obtain ⟨u, result⟩ := r
  cases hlast
  rfl

/-- **The upload.** Whatever else is sent between `MEM_BEGIN` and the `MEM_END` that
ends the loop, and however often and in whatever order the blocks are: once every block
was acknowledged, the memory holds the image at its base and is as it was elsewhere, but
for the loader's own variables, which the image must not lie over, and the entry point of
that `MEM_END` is returned. -/
theorem ram_download_correct (l : Layout) (memory : Memory) (image : Bytes) (b : Nat)
    (base total blocks entry : UInt32) (middle : List Bytes) (last tail : Bytes) (n : Nat)
    (hb : 0 < b) (hbuf : 24 + b ≤ recvBufSize) (hfit : base.toNat + image.length < 2 ^ 32)
    (hown : l.Avoids base image.length)
    (hframed : ∀ q ∈ middle, q ≠ [] ∧ q.length ≤ intMax) (hsent : ∀ q ∈ middle, Sent image b q)
    (hacknowledged : ∀ i, i * b < image.length →
      Acknowledged l image b (turn l (packetOf recvBufSize
        (memBeginRequest total blocks (.ofNat b) base)) (initial l memory)).1 middle i)
    (hlast : Ends entry last) :
    let packets := memBeginRequest total blocks (.ofNat b) base :: middle ++ [last]
    let r := runProtocol l (packets.length + n) (packets.flatMap sendPacket ++ tail)
      (initial l memory)
    r.2 = some entry ∧
      (∀ a, base.toNat ≤ a.toNat → a.toNat < base.toNat + image.length →
        r.1.memory a = image.getD (a.toNat - base.toNat) 0) ∧
      ∀ a, ¬ (base.toNat ≤ a.toNat ∧ a.toNat < base.toNat + image.length) → ¬ l.Own a →
        r.1.memory a = memory a := by
  intro packets r
  obtain ⟨hbegin, hmemory, hregion⟩ := turn_memBeginRequest (l := l) total blocks (.ofNat b) base
    (initial l memory)
  have hstart : Progress l image b base memory [] (turn l (packetOf recvBufSize
      (memBeginRequest total blocks (.ofNat b) base)) (initial l memory)).1 := by
    refine ⟨fun a ha => ?_, hregion⟩
    rw [hmemory a ha, uploaded_nil]
    exact if_neg ha
  obtain ⟨hmiddle, written, hfinal, -, hall⟩ := run_middle hb hbuf hfit hown hsent hstart
  obtain ⟨hresult, hkept⟩ := turn_ends (l := l) hlast
    (runPackets l (middle.map (packetOf recvBufSize)) (turn l (packetOf recvBufSize
      (memBeginRequest total blocks (.ofNat b) base)) (initial l memory)).1).1
  have hpackets : ∀ q ∈ packets, q ≠ [] ∧ q.length ≤ intMax := by
    intro q hq
    rcases List.mem_append.mp hq with hq | hq
    · rcases List.mem_cons.mp hq with rfl | hq
      · refine framed_of_accepted (header_request cmdMemBegin 0 ?_).accepted
        simp only [word, List.length_append, length_leBytes]
        decide
      · exact hframed q hq
    · rw [List.mem_singleton.mp hq]
      exact framed_of_accepted hlast.1
  have hr : r = turn l (packetOf recvBufSize last)
      (runPackets l (middle.map (packetOf recvBufSize)) (turn l (packetOf recvBufSize
        (memBeginRequest total blocks (.ofNat b) base)) (initial l memory)).1).1 := by
    have hreceived := recvCalls_stream recvBufSize hpackets n tail
    simp only [r, runProtocol_eq, hreceived]
    simp only [packets, List.map_cons, List.map_append, List.map_nil, List.cons_append,
      List.append_assoc, List.nil_append]
    exact runPackets_upload hbegin hmiddle hresult
  have hdone : ∀ i, i * b < image.length → i ∈ written := fun i hi => by
    obtain ⟨chk, hmem, hmatch⟩ := (hacknowledged i hi).matches hb hbuf hfit hown hsent hstart hi
    exact hall i chk hi hmem hmatch
  have hleft : ∀ a, ¬ l.Own a → r.1.memory a =
      if base.toNat ≤ a.toNat ∧ a.toNat - base.toNat < image.length then
        image.getD (a.toNat - base.toNat) 0
      else memory a := by
    intro a ha
    rw [hr, hkept a ha, hfinal.memory a ha, uploaded_of_all hdone]
  refine ⟨by rw [hr]; exact hresult, fun a hlow hhigh => ?_, fun a hout ha => ?_⟩
  · have ha := hown a ((within_iff (by omega) a).mpr ⟨hlow, hhigh⟩)
    rw [hleft a ha, if_pos ⟨hlow, by omega⟩]
  · rw [hleft a ha, if_neg fun hin => hout ⟨hin.1, by omega⟩]

/-- Two blocks of an image of three bytes: the second one first, then the other with a
wrong checksum, a `SYNC`, the first block and the second again. -/
theorem ram_download_correct_two_blocks :
    let middle := [blockRequest [1, 2, 3] 2 1 0xEC, blockRequest [1, 2, 3] 2 0 0,
      request cmdSync 0 (List.replicate 36 0x55), blockRequest [1, 2, 3] 2 0 0xEC,
      blockRequest [1, 2, 3] 2 1 0xEC]
    let packets := memBeginRequest 3 2 2 0x100 :: middle ++ [memEndRequest 0 0x100]
    let r := runProtocol exampleLayout (packets.length + 0) (packets.flatMap sendPacket ++ [])
      (initial exampleLayout fun _ => 0)
    r.2 = some 0x100 ∧
      (∀ a, (0x100 : UInt32).toNat ≤ a.toNat → a.toNat < (0x100 : UInt32).toNat + [1, 2, 3].length →
        r.1.memory a = [1, 2, 3].getD (a.toNat - (0x100 : UInt32).toNat) 0) ∧
      ∀ a, ¬ ((0x100 : UInt32).toNat ≤ a.toNat ∧
          a.toNat < (0x100 : UInt32).toNat + [1, 2, 3].length) → ¬ exampleLayout.Own a →
        r.1.memory a = 0 := by
  intro middle
  refine ram_download_correct exampleLayout (fun _ => 0) [1, 2, 3] 2 0x100 3 2 0x100 middle
    (memEndRequest 0 0x100) [] 0 (by decide) (by decide) (by decide)
    (avoids_exampleLayout (by decide)) (by decide +kernel) ?_ ?_ (by unfold Ends; decide +kernel)
  · simp only [middle, List.forall_mem_cons]
    exact ⟨.inl ⟨1, _, by decide, rfl⟩, .inl ⟨0, _, by decide, rfl⟩,
      .inr (.inr (.inl (by decide +kernel))), .inl ⟨0, _, by decide, rfl⟩,
      .inl ⟨1, _, by decide, rfl⟩, fun _ h => by cases h⟩
  · intro i hi
    have hlt : i < 2 := by
      rw [List.length_cons, List.length_cons, List.length_cons, List.length_nil] at hi
      omega
    match i with
    | 0 => exact ⟨middle.take 3, 0xEC, middle.drop 4, rfl, by decide +kernel⟩
    | 1 => exact ⟨[], 0xEC, middle.drop 1, rfl, by decide +kernel⟩
    | i + 2 => omega

/-- An image over `s_mem_base`: its first block says where the second one goes. -/
def overBase : Bytes := [0, 1, 0, 0, 5]

/-- **An image over the loader's variables is not uploaded**: every block of it is
acknowledged with success, and the memory at its base does not hold it. -/
theorem upload_over_variables :
    ¬ ∀ (l : Layout) (memory : Memory) (image : Bytes) (b : Nat) (base total blocks entry : UInt32)
      (middle : List Bytes) (last tail : Bytes) (n : Nat), 0 < b → 24 + b ≤ recvBufSize →
      base.toNat + image.length < 2 ^ 32 → (∀ q ∈ middle, q ≠ [] ∧ q.length ≤ intMax) →
      (∀ q ∈ middle, Sent image b q) →
      (∀ i, i * b < image.length →
        Acknowledged l image b (turn l (packetOf recvBufSize
          (memBeginRequest total blocks (.ofNat b) base)) (initial l memory)).1 middle i) →
      Ends entry last →
      ∀ a, base.toNat ≤ a.toNat → a.toNat < base.toNat + image.length →
        (runProtocol l
          ((memBeginRequest total blocks (.ofNat b) base :: middle ++ [last]).length + n)
          ((memBeginRequest total blocks (.ofNat b) base :: middle ++ [last]).flatMap sendPacket ++
            tail) (initial l memory)).1.memory a = image.getD (a.toNat - base.toNat) 0 := by
  intro h
  have hheld := h exampleLayout (fun _ => 0) overBase 4 0x20000 5 2 0x100
    [blockRequest overBase 4 0 0xEE, blockRequest overBase 4 1 0xEA] (memEndRequest 0 0x100) [] 0
    (by decide) (by decide) (by decide) (by decide +kernel) ?_ ?_ (by unfold Ends; decide +kernel)
    0x20004 (by decide) (by decide)
  · revert hheld
    decide +kernel
  · simp only [List.forall_mem_cons]
    exact ⟨.inl ⟨0, _, by decide, rfl⟩, .inl ⟨1, _, by decide, rfl⟩, fun _ h => by cases h⟩
  · intro i hi
    have hlt : i < 2 := by
      have hlen : overBase.length = 5 := rfl
      omega
    match i with
    | 0 => exact ⟨[], 0xEE, [blockRequest overBase 4 1 0xEA], rfl, by decide +kernel⟩
    | 1 => exact ⟨[blockRequest overBase 4 0 0xEE], 0xEA, [], rfl, by decide +kernel⟩
    | i + 2 => omega

end Jukeboy.Bootloader.Upload
