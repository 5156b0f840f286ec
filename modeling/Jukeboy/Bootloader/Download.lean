import Jukeboy.Base.LittleEndian
import Jukeboy.Bootloader.SlipReceive

/-! # The RAM download protocol

The loop of the second-stage bootloader that lets a host write to memory and start
what it wrote. The receive buffer, the base and the block size lie in the memory the
host reads and writes, at addresses the linker chooses; the loader's code and its
stack are left out. -/
namespace Jukeboy.Bootloader.Download

open Jukeboy.Base Jukeboy.Base.Slip Jukeboy.Base.LittleEndian
open Jukeboy.Bootloader.SlipReceive

/-! ## Constants -/

def dirReq : UInt8 := 0x00
def dirResp : UInt8 := 0x01

def cmdMemBegin : UInt8 := 0x05
def cmdMemEnd : UInt8 := 0x06
def cmdMemData : UInt8 := 0x07
def cmdSync : UInt8 := 0x08
def cmdWriteReg : UInt8 := 0x09
def cmdReadReg : UInt8 := 0x0A

def romErrInvalidFormat : UInt8 := 0x05
def romErrChecksum : UInt8 := 0x07

/-- `CHKSUM_SEED`. -/
def chksumSeed : UInt8 := 0xEF

/-! ## Memory -/

abbrev Memory := UInt32 → UInt8

/-- `memcpy(dest, bytes, ..)`: addresses wrap around. -/
def Memory.write (m : Memory) (dest : UInt32) (bytes : Bytes) : Memory :=
  fun a => bytes.getD (a - dest).toNat (m a)

/-- The address is one of `len` from `start` on. -/
def Within (start : UInt32) (len : Nat) (a : UInt32) : Prop := (a - start).toNat < len

instance (start : UInt32) (len : Nat) (a : UInt32) : Decidable (Within start len a) :=
  inferInstanceAs (Decidable (_ < _))

/-- Two stretches of memory share no address. -/
def Apart (start : UInt32) (len : Nat) (start' : UInt32) (len' : Nat) : Prop :=
  ∀ a, Within start len a → ¬ Within start' len' a

/-- The word at an address. -/
def Memory.word (m : Memory) (a : UInt32) : UInt32 :=
  .ofNat (leNat [m a, m (a + 1), m (a + 2), m (a + 3)])

theorem getD_of_length_le {bytes : Bytes} {k : Nat} {d : UInt8} (h : bytes.length ≤ k) :
    bytes.getD k d = d := by
  rw [List.getD_eq_getElem?_getD, List.getElem?_eq_none h, Option.getD_none]

theorem within_iff {start : UInt32} {len : Nat} (hfit : start.toNat + len ≤ 2 ^ 32) (a : UInt32) :
    Within start len a ↔ start.toNat ≤ a.toNat ∧ a.toNat < start.toNat + len := by
  have ha := a.toNat_lt
  have hs := start.toNat_lt
  have hsub : (a - start).toNat = (2 ^ 32 - start.toNat + a.toNat) % 2 ^ 32 := UInt32.toNat_sub ..
  unfold Within
  omega

/-- One stretch lies before the other. -/
theorem apart_of_le {start start' : UInt32} {len len' : Nat}
    (hle : start.toNat + len ≤ start'.toNat) (hfit : start'.toNat + len' ≤ 2 ^ 32) :
    Apart start len start' len' := by
  intro a h h'
  have hin := (within_iff (by omega) a).mp h
  have hin' := (within_iff hfit a).mp h'
  omega

theorem toNat_offset (a : UInt32) {k : Nat} (hk : k < 2 ^ 32) : (a + .ofNat k - a).toNat = k := by
  rw [UInt32.add_comm, UInt32.add_sub_cancel, UInt32.toNat_ofNat']
  exact Nat.mod_eq_of_lt hk

/-- The addresses from `a` on, with 32 bits. -/
theorem within_offset (a : UInt32) {k len : Nat} (hk : k < len) (h32 : len ≤ 2 ^ 32) :
    Within a len (a + .ofNat k) := by
  unfold Within
  rwa [toNat_offset a (hk.trans_le h32)]

theorem Apart.symm {start start' : UInt32} {len len' : Nat} (h : Apart start len start' len') :
    Apart start' len' start len := fun a hin hin' => h a hin' hin

theorem write_of_not_within {m : Memory} {dest : UInt32} {bytes : Bytes} {a : UInt32}
    (h : ¬ Within dest bytes.length a) : m.write dest bytes a = m a :=
  getD_of_length_le (Nat.not_lt.mp h)

theorem write_of_within {m : Memory} {dest : UInt32} {bytes : Bytes} {k : Nat}
    (hk : k < bytes.length) (h32 : k < 2 ^ 32) :
    m.write dest bytes (dest + .ofNat k) = bytes.getD k 0 := by
  have hoff := toNat_offset dest h32
  unfold Memory.write
  rw [hoff, List.getD_eq_getElem?_getD, List.getD_eq_getElem?_getD, List.getElem?_eq_getElem hk]
  rfl

/-- A write elsewhere leaves a word. -/
theorem word_write_apart {m : Memory} {dest a : UInt32} {bytes : Bytes}
    (h : Apart a 4 dest bytes.length) : (m.write dest bytes).word a = m.word a := by
  have hat : ∀ k : Nat, k < 4 → m.write dest bytes (a + .ofNat k) = m (a + .ofNat k) := by
    intro k hk
    exact write_of_not_within (h _ (within_offset a hk (by decide)))
  have h0 := hat 0 (by decide)
  rw [show a + UInt32.ofNat 0 = a from UInt32.add_zero a] at h0
  unfold Memory.word
  rw [h0, show m.write dest bytes (a + 1) = m (a + 1) from hat 1 (by decide),
    show m.write dest bytes (a + 2) = m (a + 2) from hat 2 (by decide),
    show m.write dest bytes (a + 3) = m (a + 3) from hat 3 (by decide)]

/-- A word that was written is read back. -/
theorem word_write_self (m : Memory) (a v : UInt32) :
    (m.write a (leBytes 4 v.toNat)).word a = v := by
  have hat : ∀ k : Nat, k < 4 →
      m.write a (leBytes 4 v.toNat) (a + .ofNat k) = (leBytes 4 v.toNat).getD k 0 := fun k hk =>
    write_of_within (by rw [length_leBytes]; exact hk) (by omega)
  have h0 := hat 0 (by decide)
  rw [show a + UInt32.ofNat 0 = a from UInt32.add_zero a] at h0
  have hv : v.toNat < 256 ^ 4 := v.toNat_lt
  unfold Memory.word
  rw [h0, show m.write a (leBytes 4 v.toNat) (a + 1) = _ from hat 1 (by decide),
    show m.write a (leBytes 4 v.toNat) (a + 2) = _ from hat 2 (by decide),
    show m.write a (leBytes 4 v.toNat) (a + 3) = _ from hat 3 (by decide)]
  have hbytes : [(leBytes 4 v.toNat).getD 0 0, (leBytes 4 v.toNat).getD 1 0,
      (leBytes 4 v.toNat).getD 2 0, (leBytes 4 v.toNat).getD 3 0] = leBytes 4 v.toNat := rfl
  rw [hbytes, leNat_leBytes_of_lt hv, UInt32.ofNat_toNat]

/-- What `memcpy` leaves at an address, where the bytes do not wrap around. -/
theorem write_eq {m : Memory} {dest : UInt32} {bytes : Bytes}
    (hfit : dest.toNat + bytes.length ≤ 2 ^ 32) (a : UInt32) :
    m.write dest bytes a =
      if dest.toNat ≤ a.toNat ∧ a.toNat < dest.toNat + bytes.length then
        bytes.getD (a.toNat - dest.toNat) 0
      else m a := by
  have ha := a.toNat_lt
  have hd := dest.toNat_lt
  have hsub : (a - dest).toNat = (2 ^ 32 - dest.toNat + a.toNat) % 2 ^ 32 := UInt32.toNat_sub ..
  unfold Memory.write
  by_cases hle : dest.toNat ≤ a.toNat
  · have hoff : (a - dest).toNat = a.toNat - dest.toNat := by omega
    rw [hoff]
    split
    · next h =>
      have hlt : a.toNat - dest.toNat < bytes.length := by omega
      simp [List.getD_eq_getElem?_getD, hlt]
    · next h =>
      have hout : bytes.length ≤ a.toNat - dest.toNat := by omega
      rw [getD_of_length_le hout]
  · have hout : bytes.length ≤ (a - dest).toNat := by omega
    rw [getD_of_length_le hout, if_neg (fun h => hle h.1)]

/-! ## Responses -/

/-- The arguments of `dl_send_resp`. -/
structure Response where
  op : UInt8
  value : UInt32
  payload : Bytes
  status : UInt8
  error : UInt8
deriving DecidableEq, Repr

/-- The packet `dl_send_resp` sends: the size is a `uint16_t`. -/
def Response.packet (r : Response) : Bytes :=
  [dirResp, r.op] ++ leBytes 2 (r.payload.length + 4) ++ leBytes 4 r.value.toNat ++ r.payload ++
    [r.status, r.error, 0, 0]

/-- `DL_OK`. -/
def Response.ok (op : UInt8) (value : UInt32) : Response := ⟨op, value, [], 0, 0⟩

/-- `DL_ERR`. -/
def Response.err (op error : UInt8) : Response := ⟨op, 0, [], 1, error⟩

/-- The bytes sent for responses. -/
def transmitted (responses : List Response) : Bytes :=
  responses.flatMap fun r => sendPacket r.packet

/-- The host reads the responses back, in order. -/
theorem recvCalls_transmitted {responses : List Response} {buflen : Nat}
    (h : ∀ r ∈ responses, r.payload.length < 2 ^ 16) (n : Nat) (rest : Bytes) :
    (recvCalls buflen (responses.length + n) (transmitted responses ++ rest)).1 =
      (responses.map Response.packet).map (packetOf buflen) ++ (recvCalls buflen n rest).1 := by
  have hframed : ∀ q ∈ responses.map Response.packet, q ≠ [] ∧ q.length ≤ intMax := by
    intro q hq
    obtain ⟨r, hr, rfl⟩ := List.mem_map.mp hq
    have hlen : r.packet.length = r.payload.length + 12 := by
      simp only [Response.packet, List.length_append, List.length_cons, List.length_nil,
        length_leBytes]
      omega
    have hpayload := h r hr
    refine ⟨List.ne_nil_of_length_pos (by omega), ?_⟩
    rw [hlen]
    unfold intMax
    omega
  have hcalls := recvCalls_stream buflen hframed n rest
  rw [List.length_map, List.flatMap_map] at hcalls
  exact hcalls

/-! ## State -/

/-- Where the linker puts `s_dl_recv_buf`, `s_mem_base` and `s_mem_blksz`. -/
structure Layout where
  recvBuf : UInt32
  memBase : UInt32
  memBlksz : UInt32
  base_buf : Apart memBase 4 recvBuf recvBufSize
  blksz_buf : Apart memBlksz 4 recvBuf recvBufSize
  base_blksz : Apart memBase 4 memBlksz 4

/-- The address is one of the loader's variables. -/
def Layout.Own (l : Layout) (a : UInt32) : Prop :=
  Within l.recvBuf recvBufSize a ∨ Within l.memBase 4 a ∨ Within l.memBlksz 4 a

instance (l : Layout) (a : UInt32) : Decidable (l.Own a) := inferInstanceAs (Decidable (_ ∨ _ ∨ _))

/-- A stretch of memory without any of the loader's variables. -/
def Layout.Avoids (l : Layout) (start : UInt32) (len : Nat) : Prop :=
  ∀ a, Within start len a → ¬ l.Own a

variable (l : Layout)

/-- The memory, and the responses so far. -/
structure State where
  memory : Memory
  sent : List Response

/-- The loader before its first packet: its variables are zero. -/
def initial (memory : Memory) : State where
  memory a := if l.Own a then 0 else memory a
  sent := []

namespace State

variable (s : State)

def reply (r : Response) : State := { s with sent := s.sent ++ [r] }

/-- The state once a packet is received into the buffer. -/
def receive (p : Packet) : State := { s with memory := s.memory.write l.recvBuf p.stored }

/-- Bytes of the buffer, and behind it. -/
def bytes (start len : Nat) : Bytes :=
  (List.range len).map fun i => s.memory (l.recvBuf + .ofNat (start + i))

def memBase : UInt32 := s.memory.word l.memBase

def memBlksz : UInt32 := s.memory.word l.memBlksz

end State

/-! ## Requests -/

/-- Reads a number of bytes at a position. -/
abbrev View := Nat → Nat → Bytes

def byteAt (view : View) (start : Nat) : UInt8 := .ofNat (leNat (view start 1))

/-- `le32`. -/
def le32 (view : View) (start : Nat) : UInt32 := .ofNat (leNat (view start 4))

/-- The size field of a request. -/
def size (view : View) : Nat := leNat (view 2 2)

/-- `dl_checksum`. -/
def dlChecksum (data : Bytes) : UInt8 := data.foldl (· ^^^ ·) chksumSeed

/-- `CMD_SYNC`. -/
def sync (s : State) : State :=
  { s with sent := s.sent ++ List.replicate 8 (.ok cmdSync 0x20120707) }

/-- `CMD_READ_REG`. -/
def readReg (view : View) (s : State) : State :=
  if size view < 4 then s.reply (.err cmdReadReg romErrInvalidFormat)
  else s.reply (.ok cmdReadReg (s.memory.word (le32 view 8)))

/-- `CMD_WRITE_REG`. -/
def writeReg (view : View) (s : State) : State :=
  if size view < 16 then s.reply (.err cmdWriteReg romErrInvalidFormat)
  else
    let addr := le32 view 8
    let value := le32 view 12
    let mask := le32 view 16
    let word := (s.memory.word addr &&& ~~~mask) ||| (value &&& mask)
    { s with memory := s.memory.write addr (leBytes 4 word.toNat) }.reply (.ok cmdWriteReg 0)

/-- `CMD_MEM_BEGIN`. -/
def memBegin (view : View) (s : State) : State :=
  if size view < 16 then s.reply (.err cmdMemBegin romErrInvalidFormat)
  else
    let memory := s.memory.write l.memBlksz (leBytes 4 (le32 view 16).toNat)
    let memory := memory.write l.memBase (leBytes 4 (le32 view 20).toNat)
    { s with memory }.reply (.ok cmdMemBegin 0)

/-- The bytes a `CMD_MEM_DATA` request says it carries. -/
def dataBytes (view : View) : Bytes := view 24 (le32 view 8).toNat

/-- The checksum of a request, as far as it is compared. -/
def chkOf (view : View) : UInt8 := (le32 view 4 &&& 0xFF).toUInt8

/-- `CMD_MEM_DATA`. -/
def memData (view : View) (s : State) : State :=
  if size view < 16 then s.reply (.err cmdMemData romErrInvalidFormat)
  else
    let seq := le32 view 12
    if dlChecksum (dataBytes view) ≠ chkOf view then s.reply (.err cmdMemData romErrChecksum)
    else
      let dest := s.memBase l + seq * s.memBlksz l
      { s with memory := s.memory.write dest (dataBytes view) }.reply (.ok cmdMemData 0)

/-- `CMD_MEM_END`, with the entry point the protocol returns. -/
def memEnd (view : View) (s : State) : State × Option UInt32 :=
  if size view < 8 then (s.reply (.err cmdMemEnd romErrInvalidFormat), none)
  else
    let execute := le32 view 8
    let entry := le32 view 12
    (s.reply (.ok cmdMemEnd 0), if execute = 0 ∧ entry ≠ 0 then some entry else none)

/-- The `switch` over the opcode. -/
def command (view : View) (s : State) : State × Option UInt32 :=
  let op := byteAt view 1
  if op = cmdSync then (sync s, none)
  else if op = cmdReadReg then (readReg view s, none)
  else if op = cmdWriteReg then (writeReg view s, none)
  else if op = cmdMemBegin then (memBegin l view s, none)
  else if op = cmdMemData then (memData l view s, none)
  else if op = cmdMemEnd then memEnd view s
  else (s.reply (.err op romErrInvalidFormat), none)

/-- The packet is neither too short nor too long, a request, and not truncated. -/
def accepted (view : View) (p : Packet) : Bool :=
  8 ≤ p.len && p.len ≤ recvBufSize && byteAt view 0 == dirReq && 8 + size view ≤ p.len

/-! ## The loop -/

/-- One turn of the loop of `dl_run_protocol`, once a packet is received. -/
def turn (p : Packet) (s : State) : State × Option UInt32 :=
  let s := s.receive l p
  if accepted (s.bytes l) p then command l (s.bytes l) s else (s, none)

/-- The loop over received packets, up to the one it returns for. -/
def runPackets : List Packet → State → State × Option UInt32
  | [], s => (s, none)
  | p :: ps, s =>
    match turn l p s with
    | (t, some entry) => (t, some entry)
    | (t, none) => runPackets ps t

/-- At most `n` turns of the loop of `dl_run_protocol` over the bytes received. -/
def runProtocol : Nat → Bytes → State → State × Option UInt32
  | 0, _, s => (s, none)
  | n + 1, bytes, s =>
    match recv recvBufSize bytes with
    | .returned p rest =>
      match turn l p s with
      | (t, some entry) => (t, some entry)
      | (t, none) => runProtocol n rest t
    | .blocked | .overflowed => (s, none)

/-! ## The packet and the buffer -/

variable {l} {v w : View} {s : State} {p : Packet}

/-- The bytes a call stored. -/
def view (p : Packet) : View := fun start len => (p.stored.drop start).take len

/-- The buffer holds the packet, or the start of one that does not fit. -/
def Stored (p : Packet) : Prop := p.stored.length = min p.len recvBufSize

/-- The views show the same bytes before a bound. -/
def Agree (bound : Nat) (v w : View) : Prop :=
  ∀ start len, start + len ≤ bound → v start len = w start len

theorem Agree.byteAt {bound start : Nat} (h : Agree bound v w) (hin : start + 1 ≤ bound) :
    byteAt v start = byteAt w start := by
  unfold Download.byteAt
  rw [h start 1 hin]

theorem Agree.le32 {bound start : Nat} (h : Agree bound v w) (hin : start + 4 ≤ bound) :
    le32 v start = le32 w start := by
  unfold Download.le32
  rw [h start 4 hin]

theorem Agree.size {bound : Nat} (h : Agree bound v w) (hin : 4 ≤ bound) :
    size v = size w := by
  unfold Download.size
  rw [h 2 2 hin]

theorem Stored.length_le (hp : Stored p) : p.stored.length ≤ recvBufSize := by
  rw [hp]
  exact Nat.min_le_right ..

theorem bytes_receive (hp : Stored p) (s : State) :
    Agree p.stored.length ((s.receive l p).bytes l) (view p) := by
  have hbuf := hp.length_le
  intro start len hin
  unfold State.bytes State.receive view
  refine List.ext_getElem ?_ fun i hi _ => ?_
  · simp only [List.length_map, List.length_range, List.length_take, List.length_drop]
    omega
  · have hi' : i < len := by simpa using hi
    have hlt : start + i < p.stored.length := by omega
    have h32 : start + i < 2 ^ 32 := by
      unfold recvBufSize at hbuf
      omega
    simp only [List.getElem_map, List.getElem_range, List.getElem_take, List.getElem_drop,
      write_of_within hlt h32]
    rw [List.getD_eq_getElem?_getD, List.getElem?_eq_getElem hlt]
    rfl

theorem stored_packetOf (bytes : Bytes) : Stored (packetOf recvBufSize bytes) := by
  unfold Stored packetOf
  rw [List.length_take, Nat.min_comm]

theorem stored_recvCalls {n : Nat} {bytes : Bytes} :
    ∀ p ∈ (recvCalls recvBufSize n bytes).1, Stored p := by
  induction n generalizing bytes with
  | zero =>
    intro _ h
    cases h
  | succ n ih =>
    have h := recv_reads recvBufSize bytes
    rw [recvCalls]
    generalize recv recvBufSize bytes = out at h ⊢
    intro p hp
    cases h with
    | returned pre rest q =>
      rcases List.mem_cons.mp hp with rfl | hp
      · exact stored_packetOf q
      · exact ih p hp
    | blocked | overflowed => cases hp

/-- What the loop looks at decides from the packet alone. -/
theorem accepted_receive (hp : Stored p) :
    accepted ((s.receive l p).bytes l) p = accepted (view p) p := by
  unfold accepted
  by_cases hlen : 8 ≤ p.len ∧ p.len ≤ recvBufSize
  · have hfull : 8 ≤ p.stored.length := by
      rw [hp, Nat.min_eq_left hlen.2]
      exact hlen.1
    have hagree := bytes_receive (l := l) hp s
    rw [hagree.byteAt (by omega), hagree.size (by omega)]
  · rcases not_and_or.mp hlen with h | h
    · simp [h]
    · simp [h]

/-- An accepted packet: what lies before the end its size field gives is its own. -/
theorem Stored.agree (hp : Stored p) (h : accepted (view p) p = true) (s : State) :
    Agree (8 + size (view p)) ((s.receive l p).bytes l) (view p) := by
  unfold accepted at h
  simp only [Bool.and_eq_true, decide_eq_true_eq] at h
  obtain ⟨⟨⟨-, hshort⟩, -⟩, hsize⟩ := h
  intro start len hin
  refine bytes_receive hp s start len ?_
  rw [hp, Nat.min_eq_left hshort]
  exact hin.trans hsize

theorem turn_of_accepted (hp : Stored p) (h : accepted (view p) p = true) (s : State) :
    turn l p s = command l ((s.receive l p).bytes l) (s.receive l p) :=
  if_pos ((accepted_receive hp).trans h)

theorem turn_of_not_accepted (hp : Stored p) (h : accepted (view p) p = false) (s : State) :
    turn l p s = (s.receive l p, none) :=
  if_neg (by rw [accepted_receive hp, h]; intro h; cases h)

/-! ## The loop over packets -/

theorem runProtocol_eq (n : Nat) (bytes : Bytes) (s : State) :
    runProtocol l n bytes s = runPackets l (recvCalls recvBufSize n bytes).1 s := by
  induction n generalizing bytes s with
  | zero => rfl
  | succ n ih =>
    rw [runProtocol, recvCalls]
    cases recv recvBufSize bytes with
    | blocked | overflowed => rfl
    | returned p rest =>
      dsimp only
      rw [runPackets]
      generalize turn l p s = r
      obtain ⟨t, entry⟩ := r
      cases entry with
      | none => exact ih rest t
      | some entry => rfl

theorem runPackets_append (ps qs : List Packet) (s : State)
    (h : (runPackets l ps s).2 = none) :
    runPackets l (ps ++ qs) s = runPackets l qs (runPackets l ps s).1 := by
  induction ps generalizing s with
  | nil => rfl
  | cons p ps ih =>
    rw [runPackets] at h
    rw [List.cons_append, runPackets, runPackets]
    generalize turn l p s = r at h ⊢
    obtain ⟨t, entry⟩ := r
    cases entry with
    | none => exact ih t h
    | some entry => cases h

theorem recvCalls_succ {n : Nat} {bytes : Bytes} :
    (recvCalls recvBufSize n bytes).1 = (recvCalls recvBufSize (n + 1) bytes).1.take n := by
  induction n generalizing bytes with
  | zero => rfl
  | succ n ih =>
    rw [recvCalls, recvCalls]
    cases recv recvBufSize bytes with
    | blocked | overflowed => rfl
    | returned p rest => exact congrArg (p :: ·) ih

/-! ## What MEM_BEGIN set -/

/-- The base and the block size after a packet. -/
def begun (region : UInt32 × UInt32) (p : Packet) : UInt32 × UInt32 :=
  if accepted (view p) p = true ∧ byteAt (view p) 1 = cmdMemBegin ∧ 16 ≤ size (view p) then
    (le32 (view p) 20, le32 (view p) 16)
  else region

/-- The base and the block size of the last accepted `MEM_BEGIN`, zero before any. -/
def lastBegin (ps : List Packet) : UInt32 × UInt32 := ps.foldl begun (0, 0)

def State.region (l : Layout) (s : State) : UInt32 × UInt32 := (s.memBase l, s.memBlksz l)

/-- The length word of the request is one its packet has bytes for. -/
def Covered (p : Packet) : Prop :=
  16 ≤ size (view p) ∧ (le32 (view p) 8).toNat ≤ size (view p) - 16

instance (p : Packet) : Decidable (Covered p) := inferInstanceAs (Decidable (_ ∧ _))

/-- The checksum of a request fails over bytes its packet has. -/
def Refused (p : Packet) : Prop :=
  Covered p ∧ dlChecksum (dataBytes (view p)) ≠ chkOf (view p)

instance (p : Packet) : Decidable (Refused p) := inferInstanceAs (Decidable (_ ∧ _))

/-- Where a request writes, and how many bytes. -/
def writes (region : UInt32 × UInt32) (p : Packet) : Option (UInt32 × Nat) :=
  let v := view p
  if accepted v p = true ∧ 16 ≤ size v then
    if byteAt v 1 = cmdWriteReg then some (le32 v 8, 4)
    else if byteAt v 1 = cmdMemData ∧ ¬ Refused p then
      some (region.1 + le32 v 12 * region.2, (le32 v 8).toNat)
    else none
  else none

/-- The request does not write over the loader's variables. -/
def Spares (l : Layout) (region : UInt32 × UInt32) (p : Packet) : Prop :=
  ∀ dest len, writes region p = some (dest, len) → l.Avoids dest len

/-- No request of the list does. -/
def AllSpare (l : Layout) : UInt32 × UInt32 → List Packet → Prop
  | _, [] => True
  | region, p :: ps => Spares l region p ∧ AllSpare l (begun region p) ps

/-- A write that spares the loader's variables leaves the region. -/
theorem region_write {dest : UInt32} {bytes : Bytes} (h : l.Avoids dest bytes.length) (s : State) :
    State.region l { s with memory := s.memory.write dest bytes } = s.region l := by
  have hbase : Apart l.memBase 4 dest bytes.length := fun a hin hdest =>
    h a hdest (.inr (.inl hin))
  have hblksz : Apart l.memBlksz 4 dest bytes.length := fun a hin hdest =>
    h a hdest (.inr (.inr hin))
  unfold State.region State.memBase State.memBlksz
  rw [word_write_apart hbase, word_write_apart hblksz]

theorem AllSpare.of_append {region : UInt32 × UInt32} {ps qs : List Packet}
    (h : AllSpare l region (ps ++ qs)) : AllSpare l region ps := by
  induction ps generalizing region with
  | nil => trivial
  | cons p ps ih => exact ⟨h.1, ih h.2⟩

theorem Apart.shrink {start start' : UInt32} {len len' small : Nat}
    (h : Apart start len start' len') (hle : small ≤ len') : Apart start len start' small :=
  fun a hin hsmall => h a hin (lt_of_lt_of_le hsmall hle)

theorem region_receive (hp : Stored p) (s : State) : (s.receive l p).region l = s.region l := by
  unfold State.region State.memBase State.memBlksz State.receive
  rw [word_write_apart (l.base_buf.shrink hp.length_le),
    word_write_apart (l.blksz_buf.shrink hp.length_le)]

theorem region_reply (s : State) (r : Response) : (s.reply r).region l = s.region l := rfl

theorem region_readReg (v : View) (s : State) : (readReg v s).region l = s.region l := by
  unfold readReg
  split
  · rfl
  · rfl

theorem region_writeReg (v : View) (s : State)
    (h : 16 ≤ size v → l.Avoids (le32 v 8) 4) : (writeReg v s).region l = s.region l := by
  unfold writeReg
  split
  · rfl
  · next hsize =>
    rw [region_reply]
    refine region_write ?_ s
    rw [length_leBytes]
    exact h (not_lt.mp hsize)

theorem length_bytes (s : State) (start n : Nat) : (s.bytes l start n).length = n := by
  rw [State.bytes, List.length_map, List.length_range]

theorem region_memData (s : State)
    (h : 16 ≤ size (s.bytes l) → dlChecksum (dataBytes (s.bytes l)) = chkOf (s.bytes l) →
      l.Avoids (s.memBase l + le32 (s.bytes l) 12 * s.memBlksz l) (le32 (s.bytes l) 8).toNat) :
    (memData l (s.bytes l) s).region l = s.region l := by
  unfold memData
  split
  · rfl
  · next hsize =>
    dsimp only
    split
    · rfl
    · next hchk =>
      rw [region_reply]
      refine region_write ?_ s
      rw [dataBytes, length_bytes]
      exact h (not_lt.mp hsize) (not_not.mp hchk)

theorem region_memEnd (v : View) (s : State) : (memEnd v s).1.region l = s.region l := by
  unfold memEnd
  split
  · rfl
  · rfl

theorem region_memBegin (v : View) (s : State) :
    (memBegin l v s).region l = if 16 ≤ size v then (le32 v 20, le32 v 16) else s.region l := by
  unfold memBegin
  by_cases hsize : size v < 16
  · rw [if_pos hsize, if_neg (not_le.mpr hsize)]
    rfl
  · rw [if_neg hsize, if_pos (not_lt.mp hsize), region_reply]
    unfold State.region State.memBase State.memBlksz
    have hapart : Apart l.memBlksz 4 l.memBase (leBytes 4 (le32 v 20).toNat).length := by
      rw [length_leBytes]
      exact l.base_blksz.symm
    rw [word_write_self, word_write_apart hapart, word_write_self]

/-- Only `MEM_BEGIN` sets the region, where the writes spare the loader's variables. -/
theorem region_command (s : State)
    (hwrite : byteAt (s.bytes l) 1 = cmdWriteReg → 16 ≤ size (s.bytes l) →
      l.Avoids (le32 (s.bytes l) 8) 4)
    (hdata : byteAt (s.bytes l) 1 = cmdMemData → 16 ≤ size (s.bytes l) →
      dlChecksum (dataBytes (s.bytes l)) = chkOf (s.bytes l) →
      l.Avoids (s.memBase l + le32 (s.bytes l) 12 * s.memBlksz l) (le32 (s.bytes l) 8).toNat) :
    (command l (s.bytes l) s).1.region l =
      if byteAt (s.bytes l) 1 = cmdMemBegin ∧ 16 ≤ size (s.bytes l) then
        (le32 (s.bytes l) 20, le32 (s.bytes l) 16)
      else s.region l := by
  unfold command
  dsimp only
  by_cases hbegin : byteAt (s.bytes l) 1 = cmdMemBegin
  · have hsync : ¬ cmdMemBegin = cmdSync := by decide
    have hread : ¬ cmdMemBegin = cmdReadReg := by decide
    have hreg : ¬ cmdMemBegin = cmdWriteReg := by decide
    rw [hbegin, if_neg hsync, if_neg hread, if_neg hreg, if_pos rfl]
    dsimp only
    rw [region_memBegin]
    simp only [true_and]
  · rw [if_neg (fun h : byteAt (s.bytes l) 1 = cmdMemBegin ∧ 16 ≤ size (s.bytes l) => hbegin h.1)]
    split
    · rfl
    · split
      · exact region_readReg _ s
      · split
        · next hop => exact region_writeReg _ s (hwrite hop)
        · split
          · next hop => exact region_memData s (hdata hop)
          · split
            · exact region_memEnd _ s
            · rfl

/-- What a request says of its data is in its packet, if it is covered. -/
theorem Covered.agree (hin : Covered p) (hagree : Agree (8 + size (view p)) v (view p)) :
    dataBytes v = dataBytes (view p) ∧ chkOf v = chkOf (view p) ∧
      le32 v 12 = le32 (view p) 12 := by
  obtain ⟨hlong, hdata⟩ := hin
  refine ⟨?_, ?_, hagree.le32 (by omega)⟩
  · unfold dataBytes
    rw [hagree.le32 (by omega)]
    exact hagree 24 _ (by omega)
  · unfold chkOf
    rw [hagree.le32 (by omega)]

theorem region_turn (hp : Stored p) (s : State) (hspares : Spares l (s.region l) p) :
    (turn l p s).1.region l = begun (s.region l) p := by
  unfold begun
  have hreceive := region_receive (l := l) hp s
  cases h : accepted (view p) p with
  | false =>
    rw [turn_of_not_accepted hp h, if_neg (fun hall => by cases hall.1)]
    exact hreceive
  | true =>
    have hagree := hp.agree (l := l) h s
    have hop : byteAt ((s.receive l p).bytes l) 1 = byteAt (view p) 1 := hagree.byteAt (by omega)
    have hsize := hagree.size (by omega)
    have hcommand := region_command (l := l) (s.receive l p) (fun hwrite hlong => ?_)
      fun hdata hlong hchk => ?_
    · rw [turn_of_accepted hp h, hcommand, hop, hsize]
      by_cases hbegin : byteAt (view p) 1 = cmdMemBegin ∧ 16 ≤ size (view p)
      · have hlong := hbegin.2
        rw [if_pos hbegin, if_pos ⟨rfl, hbegin⟩, hagree.le32 (by omega), hagree.le32 (by omega)]
      · rw [if_neg hbegin, if_neg (fun hall => hbegin hall.2)]
        exact hreceive
    · rw [hsize] at hlong
      rw [hop] at hwrite
      rw [hagree.le32 (by omega)]
      refine hspares _ _ ?_
      rw [writes]
      rw [if_pos ⟨h, hlong⟩, if_pos hwrite]
    · rw [hsize] at hlong
      rw [hop] at hdata
      have hregion : ((s.receive l p).memBase l, (s.receive l p).memBlksz l) = s.region l := hreceive
      obtain ⟨hbase, hblksz⟩ := Prod.mk.inj hregion
      rw [hagree.le32 (by omega), hagree.le32 (by omega), hbase, hblksz]
      refine hspares _ _ ?_
      have hnot : ¬ Refused p := by
        rintro ⟨hcovered, hbad⟩
        obtain ⟨hbytes, hword, -⟩ := hcovered.agree hagree
        rw [hbytes, hword] at hchk
        exact hbad hchk
      have hreg : ¬ cmdMemData = cmdWriteReg := by decide
      rw [writes]
      rw [if_pos ⟨h, hlong⟩, hdata, if_neg hreg, if_pos ⟨rfl, hnot⟩]
      rfl

theorem region_runPackets {ps : List Packet} (hps : ∀ p ∈ ps, Stored p) (s : State)
    (hspare : AllSpare l (s.region l) ps) (h : (runPackets l ps s).2 = none) :
    (runPackets l ps s).1.region l = ps.foldl begun (s.region l) := by
  induction ps generalizing s with
  | nil => rfl
  | cons p ps ih =>
    have hp := region_turn (hps p List.mem_cons_self) s hspare.1
    have hrest := hspare.2
    rw [List.foldl_cons, ← hp]
    rw [← hp] at hrest
    rw [runPackets] at h ⊢
    generalize turn l p s = r at h hrest ⊢
    obtain ⟨t, entry⟩ := r
    cases entry with
    | none => exact ih (fun q hq => hps q (List.mem_cons_of_mem p hq)) t hrest h
    | some entry => cases h

/-- The loader's variables are zero at first. -/
theorem region_initial (memory : Memory) : (initial l memory).region l = (0, 0) := by
  have hzero : ∀ a, (∀ k : Nat, k < 4 → l.Own (a + .ofNat k)) → (initial l memory).memory.word a = 0 := by
    intro a hown
    have hat : ∀ k : Nat, k < 4 → (initial l memory).memory (a + .ofNat k) = 0 := fun k hk =>
      if_pos (hown k hk)
    have h0 := hat 0 (by decide)
    rw [show a + UInt32.ofNat 0 = a from UInt32.add_zero a] at h0
    unfold Memory.word
    rw [h0, show (initial l memory).memory (a + 1) = 0 from hat 1 (by decide),
      show (initial l memory).memory (a + 2) = 0 from hat 2 (by decide),
      show (initial l memory).memory (a + 3) = 0 from hat 3 (by decide)]
    rfl
  have hin : ∀ (a : UInt32) (k : Nat), k < 4 → Within a 4 (a + .ofNat k) := fun a k hk =>
    within_offset a hk (by decide)
  unfold State.region State.memBase State.memBlksz
  rw [hzero l.memBase fun k hk => .inr (.inl (hin _ k hk)),
    hzero l.memBlksz fun k hk => .inr (.inr (hin _ k hk))]

/-! ## Requests of the host -/

def word (v : UInt32) : Bytes := leBytes 4 v.toNat

/-- A request with the header the host puts before its data. -/
def request (op : UInt8) (chk : UInt32) (data : Bytes) : Bytes :=
  [dirReq, op] ++ leBytes 2 data.length ++ word chk ++ data

def memBeginRequest (total blocks blksz offset : UInt32) : Bytes :=
  request cmdMemBegin 0 (word total ++ word blocks ++ word blksz ++ word offset)

def memDataRequest (chk len seq : UInt32) (data : Bytes) : Bytes :=
  request cmdMemData chk (word len ++ word seq ++ word 0 ++ word 0 ++ data)

def memEndRequest (execute entry : UInt32) : Bytes :=
  request cmdMemEnd 0 (word execute ++ word entry)

theorem view_packetOf {q : Bytes} (hq : q.length ≤ recvBufSize) :
    view (packetOf recvBufSize q) = fun start len => (q.drop start).take len := by
  unfold view packetOf
  rw [List.take_of_length_le hq]

/-- A word of a packet that spells a number. -/
theorem le32_word {q : Bytes} {start : Nat} {v : UInt32} (rest : Bytes) (hq : q.length ≤ recvBufSize)
    (h : q.drop start = word v ++ rest) : le32 (view (packetOf recvBufSize q)) start = v := by
  have hv : v.toNat < 256 ^ 4 := v.toNat_lt
  rw [view_packetOf hq, le32, h, word, leNat_take_leBytes rest hv, UInt32.ofNat_toNat]

variable {op : UInt8} {chk : UInt32} {data : Bytes}

theorem length_request : (request op chk data).length = 8 + data.length := by
  simp only [request, word, List.length_append, List.length_cons, List.length_nil, length_leBytes]

theorem drop_request (op : UInt8) (chk : UInt32) (data : Bytes) (start : Nat) :
    (request op chk data).drop (8 + start) = data.drop start := by
  have hlen : ([dirReq, op] ++ leBytes 2 data.length ++ word chk).length = 8 := by
    simp only [word, List.length_append, List.length_cons, List.length_nil, length_leBytes]
  rw [request, ← List.drop_drop, List.drop_left' hlen]

/-- A word of the data of a request. -/
theorem le32_request (op : UInt8) (chk : UInt32) {data : Bytes} (start : Nat) {v : UInt32}
    (rest : Bytes) (hlen : 8 + data.length ≤ recvBufSize) (h : data.drop start = word v ++ rest) :
    le32 (view (packetOf recvBufSize (request op chk data))) (8 + start) = v := by
  have hq : (request op chk data).length ≤ recvBufSize := by
    rw [length_request]
    exact hlen
  refine le32_word rest hq ?_
  rw [drop_request, h]

theorem framed_of_accepted {q : Bytes}
    (h : accepted (view (packetOf recvBufSize q)) (packetOf recvBufSize q) = true) :
    q ≠ [] ∧ q.length ≤ intMax := by
  unfold accepted at h
  simp only [Bool.and_eq_true, decide_eq_true_eq] at h
  obtain ⟨⟨⟨hlow, hhigh⟩, -⟩, -⟩ := h
  have hlen : (packetOf recvBufSize q).len = q.length := rfl
  rw [hlen] at hlow hhigh
  exact ⟨List.ne_nil_of_length_pos (by omega), hhigh.trans (by decide)⟩

/-- What the loop reads of the header of a request. -/
structure Header (op : UInt8) (chk : UInt32) (data : Bytes) (p : Packet) : Prop where
  accepted : Download.accepted (view p) p = true
  op : byteAt (view p) 1 = op
  size : size (view p) = data.length
  chk : le32 (view p) 4 = chk

theorem header_request (op : UInt8) (chk : UInt32) {data : Bytes}
    (hlen : 8 + data.length ≤ recvBufSize) :
    Header op chk data (packetOf recvBufSize (request op chk data)) := by
  have hq : (request op chk data).length ≤ recvBufSize := by
    rw [length_request]
    exact hlen
  have hsize : size (view (packetOf recvBufSize (request op chk data))) = data.length := by
    have hdrop : (request op chk data).drop 2 = leBytes 2 data.length ++ (word chk ++ data) := by
      simp [request]
    have hlt : data.length < 256 ^ 2 := by
      unfold recvBufSize at hlen
      omega
    rw [view_packetOf hq, Download.size, hdrop, leNat_take_leBytes _ hlt]
  have hdir : byteAt (view (packetOf recvBufSize (request op chk data))) 0 = dirReq := by
    rw [view_packetOf hq]
    rfl
  refine ⟨?_, ?_, hsize, ?_⟩
  · have hcount : (packetOf recvBufSize (request op chk data)).len = 8 + data.length :=
      length_request
    unfold Download.accepted
    rw [hsize, hdir, hcount]
    simp [hlen]
  · rw [view_packetOf hq]
    change UInt8.ofNat (leNat [op]) = op
    simp [leNat]
  · refine le32_word data hq ?_
    have hlen : ([dirReq, op] ++ leBytes 2 data.length).length = 4 := by
      simp only [List.length_append, List.length_cons, List.length_nil, length_leBytes]
    rw [request, List.append_assoc, List.drop_left' hlen]

/-! ## Single commands -/

theorem command_sync (h : byteAt v 1 = cmdSync) (s : State) : command l v s = (sync s, none) := by
  unfold command
  rw [h]
  rfl

theorem command_readReg (h : byteAt v 1 = cmdReadReg) (s : State) :
    command l v s = (readReg v s, none) := by
  unfold command
  rw [h]
  rfl

theorem command_memBegin (h : byteAt v 1 = cmdMemBegin) (s : State) :
    command l v s = (memBegin l v s, none) := by
  unfold command
  rw [h]
  rfl

theorem command_memData (h : byteAt v 1 = cmdMemData) (s : State) :
    command l v s = (memData l v s, none) := by
  unfold command
  rw [h]
  rfl

theorem command_memEnd (h : byteAt v 1 = cmdMemEnd) (s : State) : command l v s = memEnd v s := by
  unfold command
  rw [h]
  rfl

theorem memory_readReg (v : View) (s : State) : (readReg v s).memory = s.memory := by
  unfold readReg
  split
  · rfl
  · rfl

theorem memory_memBegin (v : View) (s : State) {a : UInt32} (ha : ¬ l.Own a) :
    (memBegin l v s).memory a = s.memory a := by
  unfold memBegin
  split
  · rfl
  · have hbase : ¬ Within l.memBase (leBytes 4 (le32 v 20).toNat).length a := by
      rw [length_leBytes]
      exact fun h => ha (.inr (.inl h))
    have hblksz : ¬ Within l.memBlksz (leBytes 4 (le32 v 16).toNat).length a := by
      rw [length_leBytes]
      exact fun h => ha (.inr (.inr h))
    exact (write_of_not_within hbase).trans (write_of_not_within hblksz)

/-- Receiving a packet changes the buffer alone. -/
theorem memory_receive (hp : Stored p) (s : State) {a : UInt32} (ha : ¬ l.Own a) :
    (s.receive l p).memory a = s.memory a :=
  write_of_not_within fun h => ha (.inl (lt_of_lt_of_le h hp.length_le))

theorem memory_memEnd (v : View) (s : State) : (memEnd v s).1.memory = s.memory := by
  unfold memEnd
  split
  · rfl
  · rfl

/-- A `MEM_END` that does not end the loop. -/
theorem result_memEnd (h : size v < 8 ∨ le32 v 8 ≠ 0 ∨ le32 v 12 = 0) (s : State) :
    (memEnd v s).2 = none := by
  unfold memEnd
  by_cases hshort : size v < 8
  · rw [if_pos hshort]
  · have hnot : ¬ (le32 v 8 = 0 ∧ le32 v 12 ≠ 0) := fun hall => by
      rcases h with h | h | h
      · exact hshort h
      · exact h hall.1
      · exact hall.2 h
    rw [if_neg hshort]
    exact if_neg hnot

/-! ## Answers to MEM_DATA -/

/-- A `MEM_DATA` request that is answered. -/
def IsMemData (p : Packet) : Prop :=
  accepted (view p) p = true ∧ byteAt (view p) 1 = cmdMemData

instance (p : Packet) : Decidable (IsMemData p) := inferInstanceAs (Decidable (_ ∧ _))

/-- The answer to a `MEM_DATA` request, from the bytes of its packet alone. -/
structure Answered (l : Layout) (region : UInt32 × UInt32) (p : Packet) (s t : State) : Prop where
  short : size (view p) < 16 →
    t.sent = s.sent ++ [.err cmdMemData romErrInvalidFormat] ∧ t.memory = (s.receive l p).memory
  refused : Refused p →
    t.sent = s.sent ++ [.err cmdMemData romErrChecksum] ∧ t.memory = (s.receive l p).memory
  written : Covered p → dlChecksum (dataBytes (view p)) = chkOf (view p) →
    t.sent = s.sent ++ [.ok cmdMemData 0] ∧
      t.memory = (s.receive l p).memory.write (region.1 + le32 (view p) 12 * region.2)
        (dataBytes (view p))

theorem turn_memData (hp : Stored p) (h : IsMemData p) (s : State) :
    turn l p s = (memData l ((s.receive l p).bytes l) (s.receive l p), none) := by
  have hop := ((hp.agree (l := l) h.1 s).byteAt (by omega)).trans h.2
  rw [turn_of_accepted hp h.1, command_memData hop]

theorem answered_turn (hp : Stored p) (h : IsMemData p) (s : State) :
    Answered l (s.region l) p s (turn l p s).1 := by
  have hagree := hp.agree (l := l) h.1 s
  have hsize := hagree.size (by omega)
  have hregion : ((s.receive l p).memBase l, (s.receive l p).memBlksz l) = s.region l :=
    region_receive hp s
  obtain ⟨hbase, hblksz⟩ := Prod.mk.inj hregion
  rw [turn_memData hp h]
  unfold memData
  rw [hsize]
  refine ⟨fun hshort => ?_, fun hrefused => ?_, fun hin hgood => ?_⟩
  · rw [if_pos hshort]
    exact ⟨rfl, rfl⟩
  · obtain ⟨hdata, hchk, -⟩ := hrefused.1.agree hagree
    dsimp only
    rw [if_neg (not_lt.mpr hrefused.1.1), hdata, hchk, if_pos hrefused.2]
    exact ⟨rfl, rfl⟩
  · obtain ⟨hdata, hchk, hseq⟩ := hin.agree hagree
    dsimp only
    rw [if_neg (not_lt.mpr hin.1), hdata, hchk, if_neg (not_not.mpr hgood), hseq, hbase, hblksz]
    exact ⟨rfl, rfl⟩

/-- **MEM_DATA.** In the run of the protocol over any bytes, where no request so far
writes over the loader's own variables, a `MEM_DATA` request whose length word its
packet covers is answered from the bytes of the packet alone: with an error, and the
memory as it was when the packet had come in, if it is too short or its checksum fails;
else with its bytes written at the base and by the block size of the last accepted
`MEM_BEGIN`, and nowhere else. -/
theorem mem_data_answered (l : Layout) (memory : Memory) (bytes : Bytes) (k : Nat)
    (before : List Packet) (p : Packet) (hk : before.length = k)
    (hreceived : (recvCalls recvBufSize (k + 1) bytes).1 = before ++ [p])
    (hrunning : (runProtocol l k bytes (initial l memory)).2 = none) (hp : IsMemData p)
    (hspare : AllSpare l (0, 0) (before ++ [p])) :
    Answered l (lastBegin before) p (runProtocol l k bytes (initial l memory)).1
      (runProtocol l (k + 1) bytes (initial l memory)).1 := by
  have hbefore : (recvCalls recvBufSize k bytes).1 = before := by
    rw [recvCalls_succ, hreceived, ← hk, List.take_left]
  have hstored : ∀ q ∈ before ++ [p], Stored q := fun q hq =>
    stored_recvCalls q (hreceived ▸ hq)
  rw [runProtocol_eq, hbefore] at hrunning ⊢
  rw [runProtocol_eq, hreceived, runPackets_append before [p] _ hrunning]
  have hspared : AllSpare l ((initial l memory).region l) before := by
    rw [region_initial]
    exact hspare.of_append
  have hregion := region_runPackets (fun q hq => hstored q (List.mem_append_left [p] hq)) _
    hspared hrunning
  have hanswer := answered_turn (l := l) (hstored p (by simp)) hp
    (runPackets l before (initial l memory)).1
  rw [hregion, region_initial] at hanswer
  have hlast : (runPackets l [p] (runPackets l before (initial l memory)).1).1 =
      (turn l p (runPackets l before (initial l memory)).1).1 := by
    rw [runPackets]
    generalize turn l p (runPackets l before (initial l memory)).1 = r
    obtain ⟨t, entry⟩ := r
    cases entry with
    | none | some => rfl
  rw [hlast]
  exact hanswer

/-- The loader's variables, far from where the examples write. -/
def exampleLayout : Layout where
  recvBuf := 0x10000
  memBase := 0x20000
  memBlksz := 0x20004
  base_buf := (apart_of_le (by decide) (by decide)).symm
  blksz_buf := (apart_of_le (by decide) (by decide)).symm
  base_blksz := apart_of_le (by decide) (by decide)

/-- What lies below the loader's variables avoids them. -/
theorem avoids_exampleLayout {start : UInt32} {len : Nat} (h : start.toNat + len ≤ 0x10000) :
    exampleLayout.Avoids start len := by
  intro a hin hown
  rcases hown with hown | hown | hown
  · exact apart_of_le (by exact h) (by decide) a hin hown
  · exact apart_of_le (by exact h.trans (by decide)) (by decide) a hin hown
  · exact apart_of_le (by exact h.trans (by decide)) (by decide) a hin hown

/-- Two bytes of a block, after the `MEM_BEGIN` that says where they go. -/
theorem mem_data_answered_block :
    let bytes := [memBeginRequest 2 1 2 0x100, memDataRequest 0xEC 2 0 [1, 2]].flatMap sendPacket
    Answered exampleLayout (0x100, 2) (packetOf recvBufSize (memDataRequest 0xEC 2 0 [1, 2]))
      (runProtocol exampleLayout 1 bytes (initial exampleLayout fun _ => 0)).1
      (runProtocol exampleLayout 2 bytes (initial exampleLayout fun _ => 0)).1 := by
  have hbegin : writes (0, 0) (packetOf recvBufSize (memBeginRequest 2 1 2 0x100)) = none := by
    decide +kernel
  have hdata : writes (begun (0, 0) (packetOf recvBufSize (memBeginRequest 2 1 2 0x100)))
      (packetOf recvBufSize (memDataRequest 0xEC 2 0 [1, 2])) = some (0x100, 2) := by
    decide +kernel
  refine mem_data_answered exampleLayout (fun _ => 0) _ 1
    [packetOf recvBufSize (memBeginRequest 2 1 2 0x100)]
    (packetOf recvBufSize (memDataRequest 0xEC 2 0 [1, 2])) rfl (by decide +kernel)
    (by decide +kernel) (by decide +kernel) ⟨?_, ?_, trivial⟩
  · intro dest len h
    rw [hbegin] at h
    cases h
  · intro dest len h
    rw [hdata] at h
    cases h
    exact avoids_exampleLayout (by decide)

/-- The responses to requests sent to a fresh loader, and a byte of its memory. -/
def outcome (requests : List Bytes) (a : UInt32) : List Response × UInt8 :=
  let s := (runProtocol exampleLayout requests.length (requests.flatMap sendPacket)
    (initial exampleLayout fun _ => 0)).1
  (s.sent, s.memory a)

/-- `MEM_DATA` is answered with success, and written, before any `MEM_BEGIN`, outside
the region of the last one, and with a length word its packet has no bytes for: the
byte is one an earlier packet left in the buffer. And one that is written over
`s_mem_base` moves what comes after it. -/
theorem mem_data_unchecked :
    outcome [memDataRequest 0xBA 1 0 [0x55]] 0 = ([.ok cmdMemData 0], 0x55) ∧
    outcome [memBeginRequest 4 1 4 0x100, memDataRequest 0xBA 1 1 [0x55]] 0x104 =
      ([.ok cmdMemBegin 0, .ok cmdMemData 0], 0x55) ∧
    outcome [request cmdSync 0 (List.replicate 36 0x33), memBeginRequest 4 1 4 0x100,
        memDataRequest 0xDC 1 0 []] 0x100 =
      (List.replicate 8 (.ok cmdSync 0x20120707) ++ [.ok cmdMemBegin 0, .ok cmdMemData 0], 0x33) ∧
    outcome [memBeginRequest 8 2 4 0x20000, memDataRequest 0xEE 4 0 [0, 1, 0, 0],
        memDataRequest 0xBA 1 1 [0x55]] 0x104 =
      ([.ok cmdMemBegin 0, .ok cmdMemData 0, .ok cmdMemData 0], 0x55) := by
  refine ⟨by decide +kernel, by decide +kernel, by decide +kernel, by decide +kernel⟩

end Jukeboy.Bootloader.Download
