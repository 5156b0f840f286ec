import Jukeboy.Base.ByteLayout
import Jukeboy.Base.OneSlot
import Jukeboy.Player.SeekRace

/-! # The reads of the cartridge service

`cartridge_service_read_chunk_async`, the task that answers its requests into one
of two buffers and one result, and the mounts and unmounts around it. A request
carries the generation of the mount it was made under, and the task refuses it
under another one. What the task does under `s_state_mutex` is one step. -/
namespace Jukeboy.Player.CartridgeReads

open Jukeboy.Base Jukeboy.Base.ByteFile Jukeboy.Base.ByteLayout Jukeboy.Base.OneSlot
open Jukeboy.Player.Track
open Jukeboy.Player.SeekRace (nextGeneration)

/-- A card: the tracks on it, by the number their file name is printed from. A file
of a FAT volume is shorter than 4 GiB. -/
structure Card where
  track : Nat → Option (List UInt8)
  length_lt : ∀ n content, track n = some content → content.length < 2 ^ 32

/-- The file of a name; the empty name is that of the mount point. -/
def Card.find (card : Card) : Option Nat → Option (List UInt8)
  | some n => card.track n
  | none => none

/-- What a reader of the file sees of it. -/
def Card.content (card : Card) (filename : Option Nat) : List UInt8 := (card.find filename).getD []

theorem Card.length_content_lt (card : Card) (filename : Option Nat) :
    (card.content filename).length < 2 ^ 32 := by
  unfold Card.content
  cases hfile : card.find filename with
  | none => simp
  | some content =>
    cases filename with
    | none => cases hfile
    | some n => exact card.length_lt n content hfile

/-- The task to notify: the reader or the service task of the player. -/
inductive Requester where
  | reader
  | service
deriving DecidableEq, Repr

/-- `cartridge_read_request_t`. The number tells the requests apart; the code does
not store it. -/
structure Request where
  filename : Option Nat
  offset : Nat
  generation : Nat
  number : Nat
deriving DecidableEq, Repr

/-- `s_result_data`, `s_result_len` and `s_result_status`, with the number of the
request that was answered. -/
structure ReadResult where
  data : Option Bool
  len : Nat
  status : EspErr
  number : Nat
deriving DecidableEq, Repr

/-- The variables of the cartridge service that its reads use. `card` is the card
mounted last; `mounting` says that a mount has set `s_mounted` and not yet
`s_mount_generation`; `openFile` is the name of the open file. -/
structure Cart where
  mounted : Bool
  mounting : Bool
  card : Card
  mountGeneration : Nat
  mail : Mailbox Requester Request ReadResult
  openFile : Option (Option Nat)
  bufIndex : Bool
  readBuf : Bool → List UInt8
  asked : Nat

namespace Cart

variable (c : Cart)

/-! ## Requests -/

/-- The request `cartridge_service_read_chunk_async` builds under the mutex. -/
def request (filename : Option Nat) (offset : Nat) : Request where
  filename := filename
  offset := offset
  generation := c.mountGeneration
  number := 0

/-- Its `xQueueSend`, with a zero timeout. -/
def sendRequest (who : Requester) (req : Request) : Option Cart :=
  (send who { req with number := c.asked } c.mail).map fun mail =>
    { c with mail := mail, asked := c.asked + 1 }

def takeNotification (who : Requester) : Cart := { c with mail := take who c.mail }

/-- `cartridge_service_close_file`. -/
def closeFile : Cart := { c with openFile := none }

/-! ## The task -/

/-- What the file operations of one request answer, and how many bytes `fread` gets. -/
structure ServeIo where
  openOk : Bool := true
  seekOk : Bool := true
  bytesRead : Nat := cartridgeReadBufSize

/-- `cartridge_reader_task` under the mutex, and the result it leaves. -/
def serve (req : Request) (io : ServeIo) : Cart × ReadResult :=
  if !c.mounted || req.generation != c.mountGeneration then
    (c, ⟨none, 0, .invalidState, req.number⟩)
  else if c.openFile != some req.filename &&
      !(io.openOk && (c.card.find req.filename).isSome) then
    ({ c with openFile := none }, ⟨none, 0, .notFound, req.number⟩)
  else
    let buf := c.bufIndex
    let c := { c with openFile := some req.filename, bufIndex := !c.bufIndex }
    -- `(long)req.offset` is negative from `2 ^ 31` on
    if !(io.seekOk && decide (req.offset < 2 ^ 31)) then
      (c, ⟨some buf, 0, .fail, req.number⟩)
    else
      let bytes := slice (c.card.content req.filename) req.offset
        (min io.bytesRead cartridgeReadBufSize)
      ({ c with
          readBuf := fun b =>
            if b = buf then bytes ++ (c.readBuf b).drop bytes.length else c.readBuf b },
        ⟨some buf, bytes.length, .ok, req.number⟩)

/-- The task takes a request, or answers the one it took and notifies. -/
inductive Label where
  | receive
  | serve (io : ServeIo)

def step : Label → Option Cart
  | .receive => (OneSlot.receive c.mail).map fun mail => { c with mail := mail }
  | .serve io =>
    match c.mail.serving with
    | none => none
    | some (_, req) =>
      let (c', result) := c.serve req io
      (reply result c'.mail).map fun mail => { c' with mail := mail }

/-! ## Mounts

They are commands of the one console task, so that none begins inside another. -/

/-- `cartridge_service_mount` of a card, up to `s_mounted = true`. -/
def mount (card : Card) : Option Cart :=
  if c.mounted || c.mounting then none
  else some { c with mounted := true, mounting := true, card := card }

/-- The rest of it. -/
def finishMount : Option Cart :=
  if c.mounting then
    some { c with mounting := false, mountGeneration := nextGeneration c.mountGeneration }
  else none

/-- `cartridge_service_unmount`. -/
def unmount : Option Cart :=
  if !c.mounted || c.mounting then none
  else some { c with
    mounted := false
    openFile := none
    mountGeneration := nextGeneration c.mountGeneration }

end Cart

/-- Whether a file can be opened. -/
def Cart.present (c : Cart) (filename : Option Nat) : Bool :=
  c.mounted && (c.card.find filename).isSome

/-- The variables as the program starts. -/
def Cart.init : Cart where
  mounted := false
  mounting := false
  card := ⟨fun _ => none, nofun⟩
  mountGeneration := 1
  mail := ⟨none, none, ⟨none, 0, .notFinished, 0⟩, fun _ => 0⟩
  openFile := none
  bufIndex := false
  readBuf := fun _ => List.replicate cartridgeReadBufSize 0
  asked := 1

/-! ## What an answer holds -/

variable {c c' : Cart} {req : Request} {file : List UInt8} {offset number : Nat}
  {who : Requester}

/-- Should the request be answered, then from this place of this file. -/
def Serves (c : Cart) (req : Request) (file : List UInt8) (offset : Nat) : Prop :=
  req.generation = c.mountGeneration →
    ∀ content, c.card.find req.filename = some content → content = file ∧ req.offset = offset

/-- A good result points to bytes of this place of this file. -/
def Holds (readBuf : Bool → List UInt8) (file : List UInt8) (offset : Nat) (r : ReadResult) :
    Prop :=
  r.status = .ok →
    ∃ buf, r.data = some buf ∧ slice (readBuf buf) 0 r.len = slice file offset r.len

/-- The request with this number is under way, and its answer will hold bytes of this
place of this file. -/
def Expects (who : Requester) (number : Nat) (file : List UInt8) (offset : Nat) (c : Cart) :
    Prop :=
  (∃ req, req.number = number ∧ Pending who req c.mail ∧ Serves c req file offset) ∨
    Answered who c.mail ∧ c.mail.slot.number = number ∧ Holds c.readBuf file offset c.mail.slot

theorem slice_zero_append (bytes rest : List UInt8) :
    slice (bytes ++ rest) 0 bytes.length = bytes := by
  rw [slice, List.drop_zero, List.take_left]

/-- The bytes of a slice are those of the shorter slice they fill. -/
theorem slice_length_slice (content : List UInt8) (o n : Nat) :
    slice content o (slice content o n).length = slice content o n := by
  unfold slice
  rw [List.length_take, ← List.take_take, List.take_length]

/-- What serving a request touches. -/
theorem serve_touches (c : Cart) (req : Request) (io : Cart.ServeIo) :
    ∃ openFile bufIndex readBuf,
      (c.serve req io).1 = { c with openFile, bufIndex, readBuf } := by
  unfold Cart.serve
  split
  · exact ⟨_, _, _, rfl⟩
  · split
    · exact ⟨_, _, _, rfl⟩
    · dsimp only
      split <;> exact ⟨_, _, _, rfl⟩

/-- **The answer to a request**: its number, and bytes of the file it expects. -/
theorem serve_spec (io : Cart.ServeIo) (h : Serves c req file offset) :
    (c.serve req io).2.number = req.number ∧
      Holds (c.serve req io).1.readBuf file offset (c.serve req io).2 := by
  unfold Cart.serve
  split
  · exact ⟨rfl, fun h => by cases h⟩
  · next hmount =>
    split
    · exact ⟨rfl, fun h => by cases h⟩
    · dsimp only
      split
      · exact ⟨rfl, fun h => by cases h⟩
      · refine ⟨rfl, fun _ => ⟨c.bufIndex, rfl, ?_⟩⟩
        dsimp only
        rw [if_pos rfl, slice_zero_append]
        cases hfind : c.card.find req.filename with
        | none => simp [slice, Card.content, hfind]
        | some content =>
          simp only [Bool.or_eq_true, Bool.not_eq_true', bne_iff_ne, not_or, not_not] at hmount
          obtain ⟨rfl, rfl⟩ := h hmount.2 content hfind
          rw [Card.content, hfind, Option.getD_some]
          exact (slice_length_slice ..).symm

theorem quiet_step {l : Cart.Label} (hq : Quiet c.mail) : c.step l = none := by
  cases l with
  | receive => rw [Cart.step, hq.receive, Option.map_none]
  | serve io => simp only [Cart.step, hq.serving]

/-- Nothing but the exchange, the open file and the buffers change in a step of the task. -/
theorem step_touches {l : Cart.Label} (h : c.step l = some c') :
    ∃ mail openFile bufIndex readBuf, c' = { c with mail, openFile, bufIndex, readBuf } := by
  cases l with
  | receive =>
    obtain ⟨mail, -, rfl⟩ := Option.map_eq_some_iff.mp h
    exact ⟨_, _, _, _, rfl⟩
  | serve io =>
    simp only [Cart.step] at h
    split at h
    · cases h
    · next req hserving =>
      obtain ⟨mail, -, rfl⟩ := Option.map_eq_some_iff.mp h
      obtain ⟨openFile, bufIndex, readBuf, heq⟩ := serve_touches c req io
      exact ⟨_, _, _, _, by rw [heq]⟩

/-- **The task keeps what is expected of its answer.** -/
theorem expects_step {l : Cart.Label} (hc : Expects who number file offset c)
    (h : c.step l = some c') : Expects who number file offset c' := by
  cases l with
  | receive =>
    obtain ⟨mail, hreceive, rfl⟩ := Option.map_eq_some_iff.mp h
    rcases hc with ⟨req, hnumber, hpending, hserves⟩ | ⟨hanswered, -⟩
    · exact .inl ⟨req, hnumber, hpending.receive hreceive, hserves⟩
    · rw [hanswered.receive] at hreceive
      cases hreceive
  | serve io =>
    rcases hc with ⟨req, hnumber, hpending, hserves⟩ | ⟨hanswered, -⟩
    · simp only [Cart.step] at h
      split at h
      · cases h
      · next req' hserving =>
        obtain ⟨mail, hreply, rfl⟩ := Option.map_eq_some_iff.mp h
        obtain ⟨openFile, bufIndex, readBuf, heq⟩ := serve_touches c req' io
        have hmail : (c.serve req' io).1.mail = c.mail := by rw [heq]
        rw [hmail] at hreply
        obtain ⟨hsame, hanswered, hslot⟩ := hpending.reply hreply
        cases hserving.symm.trans hsame
        obtain ⟨hnum, hholds⟩ := serve_spec io hserves
        exact .inr ⟨hanswered, by rw [hslot, hnum, hnumber], by rw [hslot]; exact hholds⟩
    · simp only [Cart.step, hanswered.serving] at h
      cases h

/-! ## Requests under way -/

/-- The requests in the queue and with the task. -/
def Cart.underWay (c : Cart) : List Request :=
  (c.mail.queue.toList ++ c.mail.serving.toList).map Prod.snd

theorem mem_underWay (h : Pending who req c.mail) : req ∈ c.underWay := by
  unfold Cart.underWay
  obtain ⟨⟨hqueue, hserving⟩ | ⟨hqueue, hserving⟩, -⟩ := h <;> simp [hqueue, hserving]

theorem serves_mount {card : Card} (h : c.mount card = some c')
    (hsame : req.generation = c.mountGeneration →
      card.find req.filename = c.card.find req.filename)
    (hc : Serves c req file offset) : Serves c' req file offset := by
  unfold Cart.mount at h
  split at h
  · cases h
  · cases h
    intro hgen content hfind
    exact hc hgen content ((hsame hgen).symm.trans hfind)

/-- Under a generation that is not its own a request is refused. -/
theorem serves_of_ne (h : req.generation ≠ c.mountGeneration) : Serves c req file offset :=
  fun hgen => absurd hgen h

/-- What keeps the requests under way keeps what is expected of them. -/
theorem Expects.keep (hmail : c'.mail = c.mail) (hbuf : c'.readBuf = c.readBuf)
    (hserves : ∀ req ∈ c.underWay, Serves c req file offset → Serves c' req file offset)
    (hc : Expects who number file offset c) : Expects who number file offset c' := by
  rcases hc with ⟨req, hnumber, hpending, hs⟩ | ⟨hanswered, hnumber, hholds⟩
  · exact .inl ⟨req, hnumber, by rw [hmail]; exact hpending,
      hserves req (mem_underWay hpending) hs⟩
  · exact .inr (by rw [hmail, hbuf]; exact ⟨hanswered, hnumber, hholds⟩)

/-- A request that is sent while nothing is under way is the one to be answered. -/
theorem expects_sendRequest (hq : Quiet c.mail) (hs : Serves c req file offset)
    (h : c.sendRequest who req = some c') : Expects who c.asked file offset c' := by
  obtain ⟨mail, hsend, rfl⟩ := Option.map_eq_some_iff.mp h
  exact .inl ⟨{ req with number := c.asked }, rfl, (hq.send hsend).1, hs⟩

/-- The client that was notified finds its own answer, and leaves nothing under way. -/
theorem expects_takeNotification (hc : Expects who number file offset c)
    (h : c.mail.notified who ≠ 0) :
    Quiet (c.takeNotification who).mail ∧ c.mail.slot.number = number ∧
      Holds c.readBuf file offset c.mail.slot := by
  rcases hc with ⟨req, -, hpending, -⟩ | ⟨hanswered, hnumber, hholds⟩
  · exact absurd (hpending.notified who) h
  · exact ⟨hanswered.take, hnumber, hholds⟩

end Jukeboy.Player.CartridgeReads
