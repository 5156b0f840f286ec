import Jukeboy.Player.ReadSessions

/-! # What holds in a session of the reader

What a file says of its chunks, and the invariant of the reader's sessions: the
track information is that of a file on the card, at most one read is under way and
its client waits for it, and by where the reader is, what it has delivered, which
chunk it works on and what its buffer holds. The rules below say what a step has to
show that only moves the reader, that leaves it alone, or that mounts a card. -/
namespace Jukeboy.Player.SessionInvariant

open Jukeboy.Base Jukeboy.Base.ByteFile Jukeboy.Base.ByteLayout Jukeboy.Base.OneSlot
open Jukeboy.Base.Runs Jukeboy.Base.LittleEndian Jukeboy.Formats.Jba
open Jukeboy.Player.Track Jukeboy.Player.LookupWindow Jukeboy.Player.State
open Jukeboy.Player.Service hiding State Action step initState
open Jukeboy.Player.CartridgeReads Jukeboy.Player.ReadSessions
open Jukeboy.Player.SeekRace (nextGeneration)

/-! ## What a file says of its chunks -/

/-- The track a file describes: its header, and its size. -/
def trackOf (file : List UInt8) : TrackInfo :=
  { TrackInfo.zero with
    lookupTableLen := (readHeader file).lookupTableLen
    dataOffset := (readHeader file).headerLenInBlocks * headerBlockSize
    totalFileSize := file.length }

/-- `[table[i], table[i+1])`, the last chunk ending with the file. -/
def ownBounds (file : List UInt8) (i : Nat) : Nat × Nat := tableBounds file (trackOf file) i

def ownLen (file : List UInt8) (i : Nat) : Nat := (ownBounds file i).2 - (ownBounds file i).1

/-- The bytes of the file at `[data_offset + table[i], data_offset + table[i+1])`. -/
def ownBytes (file : List UInt8) (i : Nat) : List UInt8 :=
  slice file ((trackOf file).dataOffset + (ownBounds file i).1) (ownLen file i)

/-- The chunks from `start` up to `stop`, those of at most four bytes skipped. -/
def ownMessages (file : List UInt8) (start stop : Nat) : List (Nat × List UInt8) :=
  ((List.range' start (stop - start)).filter fun i => decide (chunkCrcBytes < ownLen file i)).map
    fun i => (i, ownBytes file i)

/-- A session delivers the chunks of its own file, from its start chunk on, in order
and without gap or repetition. -/
def Own (d : Delivery) : Prop :=
  ∃ stop ≤ (trackOf d.session.file).lookupTableLen,
    d.messages = ownMessages d.session.file d.session.startChunk stop

variable {file : List UInt8} {info : TrackInfo} {i start : Nat}

@[simp] theorem ownMessages_self (file : List UInt8) (start : Nat) :
    ownMessages file start start = [] := by
  rw [ownMessages, Nat.sub_self]
  rfl

theorem ownMessages_succ (hstart : start ≤ i) (hlen : chunkCrcBytes < ownLen file i) :
    ownMessages file start (i + 1) = ownMessages file start i ++ [(i, ownBytes file i)] := by
  have hrange : List.range' start (i + 1 - start) = List.range' start (i - start) ++ [i] := by
    rw [Nat.succ_sub hstart, List.range'_concat, Nat.one_mul, Nat.add_sub_cancel' hstart]
  rw [ownMessages, hrange, List.filter_append, List.map_append,
    List.filter_cons_of_pos (by simpa using hlen)]
  rfl

/-- A session that has begun has delivered nothing. -/
theorem own_begun (session : Session) : Own ⟨session, []⟩ :=
  ⟨0, Nat.zero_le _, by simp [ownMessages]⟩

/-- What a session delivers has the bytes of its file. -/
theorem Own.bytes {d : Delivery} {data : List UInt8} (h : Own d) (hm : (i, data) ∈ d.messages) :
    data = ownBytes d.session.file i := by
  obtain ⟨stop, -, heq⟩ := h
  rw [heq, ownMessages] at hm
  obtain ⟨j, -, hj⟩ := List.mem_map.mp hm
  obtain ⟨rfl, rfl⟩ := Prod.mk.inj hj
  rfl

/-! ## The track information of a file -/

theorem readHeader_take {bytes : List UInt8} {n : Nat} (h : headerLen ≤ n) :
    readHeader (bytes.take n) = readHeader bytes := by
  unfold headerLen at h
  simp only [readHeader, List.take_take, List.drop_take, Nat.min_eq_left (show 1 ≤ n by omega),
    Nat.min_eq_left (show 4 ≤ n - 1 by omega), Nat.min_eq_left (show 4 ≤ n - 5 by omega)]

theorem statSize_pos {length : Nat} (hlt : length < 2 ^ 32) (h : 0 < statSize length) :
    (statSize length).toNat = length := by
  unfold statSize at h ⊢
  rw [Nat.mod_eq_of_lt hlt] at h ⊢
  dsimp only at h ⊢
  split_ifs at h ⊢ <;> omega

/-- **A track that loads is the one its file describes.** -/
theorem runInv_of_parse {filename bufLen : Nat} {err : EspErr} {buf : List UInt8}
    {size : Option Nat} (h : parseTrackInfo filename err buf bufLen size = .ok info)
    (hbuf : slice buf 0 bufLen = slice file 0 bufLen) (hsize : ∀ n ∈ size, n = file.length)
    (hlt : file.length < 2 ^ 32) :
    info.filename = some filename ∧ RunInv file (trackOf file) info := by
  simp only [parseTrackInfo, failIf_bind_ok_iff, decide_eq_false_iff_not, Nat.not_lt] at h
  obtain ⟨-, hread, -, -, -, -, -, hsome, hlen, htable, heq⟩ := h
  cases size with
  | none => cases hsome
  | some n =>
    obtain rfl := hsize n rfl
    rw [slice, slice, List.drop_zero, List.drop_zero] at hbuf
    have hheader : readHeader buf = readHeader file := by
      rw [← readHeader_take hread, hbuf, readHeader_take hread]
    rw [hheader] at hlen htable heq
    rw [Option.getD_some] at hlen heq
    have hpos : 0 < statSize file.length := by omega
    have hstat := statSize_pos hlt hpos
    cases heq
    refine ⟨rfl, ⟨htable, ?_, Nat.le_refl _⟩, ⟨rfl, rfl, hstat⟩, windowOk_invalidate file _⟩
    change (readHeader file).headerLenInBlocks * headerBlockSize < file.length
    omega

/-! ## The invariant -/

variable {card : Card} {s t : State}

/-- The track information is free, or that of a file on the card. -/
structure Loaded (card : Card) (info : TrackInfo) : Prop where
  free : info.filename = none → info = .zero
  describes : info.filename ≠ none →
    RunInv (card.content info.filename) (trackOf (card.content info.filename)) info

/-- If a track is loaded, it is this file. -/
def Bound (card : Card) (info : TrackInfo) (file : List UInt8) : Prop :=
  info.filename ≠ none → card.content info.filename = file

/-- The session has delivered what lies before the chunk at hand. -/
def Progress (deliveries : List Delivery) (session : Session) (i : Nat) : Prop :=
  session.startChunk ≤ i ∧
    ∃ past, deliveries = ⟨session, ownMessages session.file session.startChunk i⟩ :: past

/-- The session works on chunk `i`, with these bounds. -/
structure InChunk (deliveries : List Delivery) (session : Session) (i : Nat) (b : Nat × Nat) :
    Prop where
  progress : Progress deliveries session i
  inTable : i < (trackOf session.file).lookupTableLen
  bounds : b = ownBounds session.file i
  valid : BoundsValid (trackOf session.file) b

/-- Where a place of the session's data lies in its file. -/
def fileOffset (session : Session) (place : Nat) : Nat := (trackOf session.file).dataOffset + place

/-- The buffer of the last read holds the session's data from `windowStart` on. -/
def BufferHolds (readBuf : Bool → List UInt8) (r : Reader) : Prop :=
  ∀ buf, r.rd = some buf →
    slice (readBuf buf) 0 r.rdLen = slice r.session.file (fileOffset r.session r.windowStart) r.rdLen

/-- What has been achieved, by where the reader is. Once the track is freed its
session reaches no further chunk. -/
def ReaderStage (cart : Cart) (info : TrackInfo) (deliveries : List Delivery) (r : Reader) : Prop :=
  match r.pc with
  | .idle | .received | .starting | .trackDone | .sendingEof | .closing => True
  | .loopTop | .resolving =>
    (info.filename ≠ none → Progress deliveries r.session r.chunkIndex) ∧
      BufferHolds cart.readBuf r
  | .checked =>
    (info.filename ≠ none →
      Progress deliveries r.session r.chunkIndex ∧
        lookupWindowContainsChunk info r.chunkIndex = true) ∧
      BufferHolds cart.readBuf r
  | .flushing | .taking | .requesting =>
    InChunk deliveries r.session r.chunkIndex (r.chunkStart, r.chunkEnd)
  | .copying offset =>
    InChunk deliveries r.session r.chunkIndex (r.chunkStart, r.chunkEnd) ∧
      (info.filename ≠ none → offset = fileOffset r.session r.chunkStart)
  | .sending req =>
    InChunk deliveries r.session r.chunkIndex (r.chunkStart, r.chunkEnd) ∧
      Serves cart req r.session.file (fileOffset r.session r.chunkStart)
  | .waiting =>
    InChunk deliveries r.session r.chunkIndex (r.chunkStart, r.chunkEnd) ∧
      Expects .reader r.request r.session.file (fileOffset r.session r.chunkStart) cart
  | .resulting =>
    InChunk deliveries r.session r.chunkIndex (r.chunkStart, r.chunkEnd) ∧
      cart.mail.slot.number = r.request ∧
      Holds cart.readBuf r.session.file (fileOffset r.session r.chunkStart) cart.mail.slot
  | .queueing =>
    InChunk deliveries r.session r.chunkIndex (r.chunkStart, r.chunkEnd) ∧
      BufferHolds cart.readBuf r ∧
      r.windowStart ≤ r.chunkStart ∧ r.chunkEnd ≤ r.windowStart + r.rdLen

/-- The service task is in a start, past its checks and before its last command. -/
def inStart : ServicePc → Bool
  | .ensuring _ | .loading _ _ _ | .loaded _ | .resetReader .start | .resetDecoder .start
  | .resetChunks .start | .sendDecoder | .sendReader => true
  | _ => false

/-- The service task waits for its read. -/
def awaitsRead : ServicePc → Bool
  | .loading _ _ .waiting => true
  | _ => false

/-- What has been achieved, by where the load of a track is. -/
def LoadStage (cart : Cart) : ServicePc → Prop
  | .loading _ filename (.sending req) => Serves cart req (cart.card.content (some filename)) 0
  | .loading _ filename .waiting =>
    ∃ number, Expects .service number (cart.card.content (some filename)) 0 cart
  | .loading _ filename .resulting =>
    Holds cart.readBuf (cart.card.content (some filename)) 0 cart.mail.slot
  | _ => True

/-- The reader waits for a start command, and there is none. -/
def ReaderFree (s : State) : Prop := s.reader.pc = .idle ∧ s.readerCmd = none

instance (s : State) : Decidable (ReaderFree s) := inferInstanceAs (Decidable (_ ∧ _))

/-- What undisturbed sessions keep. While the service task is in a start the reader has
no session, and but for the one client that waits for its read nothing is under way. -/
structure Inv (s : State) : Prop where
  loaded : Loaded s.cart.card s.service.trackInfo
  own : ∀ d ∈ s.deliveries, Own d
  queued : ∀ session ∈ s.readerCmd, Bound s.cart.card s.service.trackInfo session.file
  bound : s.reader.pc ≠ .idle → Bound s.cart.card s.service.trackInfo s.reader.session.file
  reader : ReaderStage s.cart s.service.trackInfo s.deliveries s.reader
  free : inStart s.pc = true → ReaderFree s
  load : LoadStage s.cart s.pc
  quiet : s.reader.pc ≠ .waiting → awaitsRead s.pc = false → Quiet s.cart.mail

/-! ## The track information -/

theorem Loaded.zero (card : Card) : Loaded card .zero := ⟨fun _ => rfl, fun h => absurd rfl h⟩

theorem Loaded.invalidate (h : Loaded card info) : Loaded card (invalidateLookupWindow info) where
  free hnone := by
    rw [h.free hnone]
    rfl
  describes hsome :=
    have hd := h.describes hsome
    ⟨hd.geometry, hd.same.trans (.invalidate info), windowOk_invalidate _ info⟩

/-- Making sure of the window keeps the track. -/
theorem Loaded.ensureWindow (h : Loaded card info) (io : WindowIo) (i : Nat) :
    Loaded card (ensureWindow (card.content info.filename) io info i).2 := by
  have hname := (StateInvariant.ensureWindow_frame (card.content info.filename) io info i).1
  constructor
  · intro hnone
    rw [hname] at hnone
    have hzero := h.free hnone
    subst hzero
    rfl
  · intro hsome
    rw [hname] at hsome ⊢
    have hd := h.describes hsome
    obtain ⟨hsame, hw, -⟩ := ensureWindow_spec io i (hd.same.geometry hd.geometry) hd.window
    exact ⟨hd.geometry, hd.same.trans hsame, hw⟩

/-- A chunk of a freed track has no bytes. -/
theorem readBounds_zero {b : Nat × Nat} (h : readBounds .zero i = some b) : b.2 - b.1 = 0 := by
  unfold readBounds at h
  obtain ⟨chunkStart, -, heq⟩ := Option.bind_eq_some_iff.mp h
  rw [if_neg (show ¬ _ < TrackInfo.zero.lookupWindowEntryCount from Nat.not_lt_zero _)] at heq
  cases heq
  exact Nat.zero_sub _

/-! ## Where only the reader moves -/

theorem inStart_of_awaitsRead {pc : ServicePc} (h : awaitsRead pc = true) : inStart pc = true := by
  unfold awaitsRead at h
  split at h
  · rfl
  · cases h

theorem loadStage_of_not_inStart {pc : ServicePc} (h : inStart pc = false) (cart : Cart) :
    LoadStage cart pc := by
  unfold LoadStage
  split
  all_goals first | exact trivial | cases h

/-- While the reader has a start command, the service task is in no start. -/
theorem Inv.not_inStart (hs : Inv s) (h : ¬ ReaderFree s) : inStart s.pc = false := by
  cases hstart : inStart s.pc with
  | false => rfl
  | true => exact absurd (hs.free hstart) h

theorem not_free_of_busy (h : s.reader.pc ≠ .idle) : ¬ ReaderFree s := fun hfree => h hfree.1

theorem Inv.quiet_of_busy (hs : Inv s) (hbusy : s.reader.pc ≠ .idle)
    (hwait : s.reader.pc ≠ .waiting) : Quiet s.cart.mail := by
  refine hs.quiet hwait ?_
  have hpc := hs.not_inStart (not_free_of_busy hbusy)
  cases hread : awaitsRead s.pc with
  | false => rfl
  | true => rw [inStart_of_awaitsRead hread] at hpc; cases hpc

/-- A reader in its session goes on: the track, the session and the rest of the
system stay, and what has to be shown is where the reader is now. -/
theorem Inv.readerTo (hs : Inv s) (hbusy : s.reader.pc ≠ .idle)
    (hsame : (t.pc, t.readerCmd, t.service.trackInfo, t.cart.card, t.reader.session) =
      (s.pc, s.readerCmd, s.service.trackInfo, s.cart.card, s.reader.session))
    (hown : ∀ d ∈ t.deliveries, Own d)
    (hreader : ReaderStage t.cart s.service.trackInfo t.deliveries t.reader)
    (hquiet : t.reader.pc ≠ .waiting → Quiet t.cart.mail) : Inv t := by
  simp only [Prod.mk.injEq] at hsame
  obtain ⟨hpc, hcmd, hinfo, hcard, hsession⟩ := hsame
  have hstart := hs.not_inStart (not_free_of_busy hbusy)
  refine ⟨?_, hown, ?_, ?_, ?_, ?_, ?_, fun hwait _ => hquiet hwait⟩
  · rw [hcard, hinfo]
    exact hs.loaded
  · rw [hcard, hinfo, hcmd]
    exact hs.queued
  · rw [hcard, hinfo, hsession]
    exact fun _ => hs.bound hbusy
  · rw [hinfo]
    exact hreader
  · rw [hpc, hstart]
    intro h
    cases h
  · rw [hpc]
    exact loadStage_of_not_inStart hstart _

/-- A reader that goes on within its chunk, or leaves its loop, with nothing to show. -/
theorem Inv.readerMove (hs : Inv s) (hbusy : s.reader.pc ≠ .idle) (hwait : s.reader.pc ≠ .waiting)
    (hsame : (t.pc, t.readerCmd, t.service, t.cart, t.deliveries, t.reader.session) =
      (s.pc, s.readerCmd, s.service, s.cart, s.deliveries, s.reader.session))
    (hreader : ReaderStage s.cart s.service.trackInfo s.deliveries t.reader) : Inv t := by
  simp only [Prod.mk.injEq] at hsame
  obtain ⟨hpc, hcmd, hservice, hcart, hdeliveries, hsession⟩ := hsame
  refine hs.readerTo hbusy (by rw [hpc, hcmd, hservice, hcart, hsession]) ?_ ?_ fun _ => ?_
  · rw [hdeliveries]
    exact hs.own
  · rw [hcart, hdeliveries]
    exact hreader
  · rw [hcart]
    exact hs.quiet_of_busy hbusy hwait

/-- A session that leaves its loop has nothing more to show. -/
theorem Inv.trackDone (hs : Inv s) (hbusy : s.reader.pc ≠ .idle) (hwait : s.reader.pc ≠ .waiting) :
    Inv (s.goto .trackDone) :=
  hs.readerMove hbusy hwait rfl trivial

theorem Inv.readFailed (hs : Inv s) (hbusy : s.reader.pc ≠ .idle) (hwait : s.reader.pc ≠ .waiting) :
    Inv s.readFailed :=
  hs.readerMove hbusy hwait rfl trivial

/-! ## Where the reader stays -/

/-- What a step may do to the track information while a session runs: nothing, free
it, or empty a window that the reader does not read from. -/
def InfoMove (s : State) (info : TrackInfo) : Prop :=
  info = s.service.trackInfo ∨ info = .zero ∨
    (info = invalidateLookupWindow s.service.trackInfo ∧ s.reader.pc ≠ .checked)

theorem InfoMove.filename_eq (h : InfoMove s info) (hsome : info.filename ≠ none) :
    info.filename = s.service.trackInfo.filename := by
  rcases h with rfl | rfl | ⟨rfl, -⟩
  · rfl
  · exact absurd rfl hsome
  · rfl

theorem Loaded.move (h : Loaded s.cart.card s.service.trackInfo) (hinfo : InfoMove s info) :
    Loaded s.cart.card info := by
  rcases hinfo with rfl | rfl | ⟨rfl, -⟩
  · exact h
  · exact .zero _
  · exact h.invalidate

theorem Bound.move (h : Bound s.cart.card s.service.trackInfo file) (hinfo : InfoMove s info) :
    Bound s.cart.card info file := by
  intro hsome
  have hname := hinfo.filename_eq hsome
  rw [hname] at hsome ⊢
  exact h hsome

theorem ReaderStage.move (h : ReaderStage s.cart s.service.trackInfo s.deliveries s.reader)
    (hinfo : InfoMove s info) : ReaderStage s.cart info s.deliveries s.reader := by
  have hloaded (hsome : info.filename ≠ none) : s.service.trackInfo.filename ≠ none :=
    hinfo.filename_eq hsome ▸ hsome
  unfold ReaderStage at h ⊢
  cases hpc : s.reader.pc with
  | idle | received | starting | trackDone | sendingEof | closing => trivial
  | loopTop | resolving =>
    rw [hpc] at h
    exact ⟨fun hsome => h.1 (hloaded hsome), h.2⟩
  | checked =>
    rw [hpc] at h
    rcases hinfo with rfl | rfl | ⟨-, hne⟩
    · exact h
    · exact ⟨fun hsome => absurd rfl hsome, h.2⟩
    · exact absurd hpc hne
  | copying offset =>
    rw [hpc] at h
    exact ⟨h.1, fun hsome => h.2 (hloaded hsome)⟩
  | flushing | taking | requesting | sending _ | waiting | resulting | queueing =>
    rw [hpc] at h
    exact h

/-- A step that leaves the reads and the reader alone. -/
theorem Inv.moveTo (hs : Inv s)
    (hsame : (t.cart, t.reader, t.readerCmd, t.deliveries) =
      (s.cart, s.reader, s.readerCmd, s.deliveries))
    (hinfo : InfoMove s t.service.trackInfo) (hfree : inStart t.pc = true → ReaderFree s)
    (hload : LoadStage s.cart t.pc) (hread : awaitsRead t.pc = false → awaitsRead s.pc = false) :
    Inv t := by
  simp only [Prod.mk.injEq] at hsame
  obtain ⟨hcart, hreader, hcmd, hdeliveries⟩ := hsame
  refine ⟨?_, ?_, ?_, ?_, ?_, ?_, ?_, ?_⟩
  · rw [hcart]
    exact hs.loaded.move hinfo
  · rw [hdeliveries]
    exact hs.own
  · rw [hcart, hcmd]
    exact fun session hq => (hs.queued session hq).move hinfo
  · rw [hcart, hreader]
    exact fun hbusy => (hs.bound hbusy).move hinfo
  · rw [hcart, hreader, hdeliveries]
    exact hs.reader.move hinfo
  · intro h
    rw [ReaderFree, hreader, hcmd]
    exact hfree h
  · rw [hcart]
    exact hload
  · rw [hcart, hreader]
    exact fun hwait h => hs.quiet hwait (hread h)

/-- The service task leaves a start, or was in none. -/
theorem Inv.leave (hs : Inv s)
    (hsame : (t.cart, t.reader, t.readerCmd, t.deliveries) =
      (s.cart, s.reader, s.readerCmd, s.deliveries))
    (hinfo : InfoMove s t.service.trackInfo) (hpc : inStart t.pc = false)
    (hread : awaitsRead s.pc = false) : Inv t :=
  hs.moveTo hsame hinfo (fun h => by cases hpc.symm.trans h)
    (loadStage_of_not_inStart hpc _) fun _ => hread

theorem inStart_nextPc (next : Next) : inStart (nextPc next) = false := by
  cases next <;> rfl

theorem Inv.startFailed (hs : Inv s) (hread : awaitsRead s.pc = false) : Inv s.startFailed :=
  hs.leave rfl (.inl rfl) rfl hread

/-- A step of a task that takes no part. -/
theorem Inv.beside (hs : Inv s)
    (hsame : (t.cart, t.reader, t.readerCmd, t.deliveries, t.pc) =
      (s.cart, s.reader, s.readerCmd, s.deliveries, s.pc))
    (hinfo : t.service.trackInfo = s.service.trackInfo) : Inv t := by
  simp only [Prod.mk.injEq] at hsame
  obtain ⟨hcart, hreader, hcmd, hdeliveries, hpc⟩ := hsame
  refine hs.moveTo (by rw [hcart, hreader, hcmd, hdeliveries]) (.inl hinfo) ?_ ?_ ?_
  · rw [hpc]
    exact hs.free
  · rw [hpc]
    exact hs.load
  · rw [hpc]
    exact id

theorem Inv.queueMsg (hs : Inv s) (msg : Msg) : Inv (s.queueMsg msg) := by
  unfold State.queueMsg
  split
  · exact hs.beside rfl rfl
  · exact hs

/-! ## Mounts -/

/-- The tracks that are loaded or being loaded. -/
def filesInUse (s : State) : List (Option Nat) :=
  match s.pc with
  | .loading _ filename _ => [s.service.trackInfo.filename, some filename]
  | _ => [s.service.trackInfo.filename]

def readerRequests : ReaderPc → List Request
  | .sending req => [req]
  | _ => []

def serviceRequests : ServicePc → List Request
  | .loading _ _ (.sending req) => [req]
  | _ => []

/-- The reads asked for and not answered yet. -/
def underWay (s : State) : List Request :=
  readerRequests s.reader.pc ++ serviceRequests s.pc ++ s.cart.underWay

/-- A mount or an unmount that keeps the files in use and the reads under way. -/
theorem Inv.remount (hs : Inv s) {cart : Cart} (hmail : cart.mail = s.cart.mail)
    (hbuf : cart.readBuf = s.cart.readBuf)
    (hfiles : ∀ filename ∈ filesInUse s, cart.card.content filename = s.cart.card.content filename)
    (hserves : ∀ req ∈ underWay s, ∀ file offset, Serves s.cart req file offset →
      Serves cart req file offset) : Inv { s with cart := cart } := by
  have hcontent : cart.card.content s.service.trackInfo.filename =
      s.cart.card.content s.service.trackInfo.filename := by
    refine hfiles _ ?_
    unfold filesInUse
    split <;> exact List.mem_cons_self
  have hcartUnderWay {file : List UInt8} {offset : Nat} : ∀ req ∈ s.cart.underWay,
      Serves s.cart req file offset → Serves cart req file offset := fun req hreq =>
    hserves req (List.mem_append_right _ hreq) file offset
  have hbound {file : List UInt8} (hb : Bound s.cart.card s.service.trackInfo file) :
      Bound cart.card s.service.trackInfo file := fun hsome => hcontent.trans (hb hsome)
  refine ⟨⟨hs.loaded.free, fun hsome => ?_⟩, hs.own, fun session hq => hbound (hs.queued session hq),
    fun hbusy => hbound (hs.bound hbusy), ?_, hs.free, ?_, fun hwait hread => ?_⟩
  · rw [hcontent]
    exact hs.loaded.describes hsome
  · have hstage := hs.reader
    unfold ReaderStage at hstage ⊢
    rw [hmail, hbuf]
    cases hpc : s.reader.pc with
    | sending req =>
      rw [hpc] at hstage
      refine ⟨hstage.1, hserves req ?_ _ _ hstage.2⟩
      rw [underWay, hpc]
      exact List.mem_append_left _ (List.mem_append_left _ List.mem_cons_self)
    | waiting =>
      rw [hpc] at hstage
      exact ⟨hstage.1, hstage.2.keep hmail hbuf hcartUnderWay⟩
    | idle | received | starting | trackDone | sendingEof | closing => trivial
    | loopTop | resolving | checked | flushing | taking | requesting | copying _ | resulting
    | queueing =>
      rw [hpc] at hstage
      exact hstage
  · have hload := hs.load
    cases hpc : s.pc with
    | loading st filename at_ =>
      have hfile : cart.card.content (some filename) = s.cart.card.content (some filename) := by
        refine hfiles _ ?_
        rw [filesInUse, hpc]
        exact List.mem_cons_of_mem _ List.mem_cons_self
      rw [hpc] at hload
      cases at_ with
      | asking | copying => trivial
      | sending req =>
        simp only [LoadStage, hfile]
        refine hserves req ?_ _ _ hload
        rw [underWay, hpc]
        exact List.mem_append_left _ (List.mem_append_right _ List.mem_cons_self)
      | waiting =>
        obtain ⟨number, hexpects⟩ := hload
        simp only [LoadStage, hfile]
        exact ⟨number, hexpects.keep hmail hbuf hcartUnderWay⟩
      | resulting =>
        simp only [LoadStage, hfile, hmail, hbuf]
        exact hload
    | _ => trivial
  · dsimp only at hwait hread ⊢
    rw [hmail]
    exact hs.quiet hwait hread

end Jukeboy.Player.SessionInvariant
