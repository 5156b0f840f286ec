import Mathlib.Data.List.Nodup
import Jukeboy.Player.ReadPipeline

/-! # The two read buffers are never filled under a reader

Windows are numbered by the reads of the session. The decoder gets the messages
of one window after the other, each window closed by its flush, so that a token
given back for a window means that every message of it is gone. With two tokens
a read runs at most one window ahead of the messages, and the two buffers take
turns. -/
namespace Jukeboy.Player.DoubleBuffer

open Jukeboy.Base.Runs Jukeboy.Player.ReadPipeline

variable {s t : State} {first : Bool}

/-! ## The buffer of a window -/

/-- The buffer that window `n` is read into, when window 0 goes to `first`. -/
def bufferOf (first : Bool) : Nat → Bool
  | 0 => first
  | n + 1 => !bufferOf first n

theorem bufferOf_ne (first : Bool) (n : Nat) : bufferOf first n ≠ bufferOf first (n + 1) := by
  rw [bufferOf]
  cases bufferOf first n <;> decide

/-! ## The messages on their way to the decoder -/

/-- What the decoder has received and not finished. -/
def inHand : DecoderPc → List ChunkMsg
  | .releasing window => [.releaseBuf window]
  | .decoding c => [.chunk c]
  | .opening | .receiving | .ended _ => []

/-- The messages that are being decoded or queued, oldest first. -/
def stream (s : State) : List ChunkMsg := inHand s.decoder ++ s.chunkQueue

/-- The windows whose flush is among the messages. -/
def releases (msgs : List ChunkMsg) : List Nat :=
  msgs.filterMap fun
    | .releaseBuf window => some window
    | _ => none

/-- The messages of window `n` come first, then its flush, then those of the
next window; nothing follows an EOF. -/
def Ordered : Nat → List ChunkMsg → Prop
  | _, [] => True
  | n, .chunk c :: rest => c.window = n ∧ Ordered n rest
  | n, .releaseBuf window :: rest => window = n ∧ Ordered (n + 1) rest
  | _, .eof :: rest => rest = []

/-- The message may follow messages that have come to window `n`. -/
def Follows (n : Nat) : ChunkMsg → Prop
  | .chunk c => c.window = n
  | .releaseBuf window => window = n
  | .eof => True

@[simp] theorem releases_nil : releases [] = [] := rfl

@[simp] theorem releases_chunk (c : Chunk) (msgs : List ChunkMsg) :
    releases (.chunk c :: msgs) = releases msgs := rfl

@[simp] theorem releases_eof (msgs : List ChunkMsg) :
    releases (.eof :: msgs) = releases msgs := rfl

@[simp] theorem releases_releaseBuf (window : Nat) (msgs : List ChunkMsg) :
    releases (.releaseBuf window :: msgs) = window :: releases msgs := rfl

@[simp] theorem releases_append (xs ys : List ChunkMsg) :
    releases (xs ++ ys) = releases xs ++ releases ys := List.filterMap_append

theorem Ordered.append {n : Nat} {msgs : List ChunkMsg} {msg : ChunkMsg} (h : Ordered n msgs)
    (heof : .eof ∉ msgs) (hmsg : Follows (n + (releases msgs).length) msg) :
    Ordered n (msgs ++ [msg]) := by
  induction msgs generalizing n with
  | nil =>
    cases msg with
    | chunk c => exact ⟨hmsg, trivial⟩
    | releaseBuf window => exact ⟨hmsg, trivial⟩
    | eof => rfl
  | cons m rest ih =>
    have hrest : .eof ∉ rest := fun hm => heof (List.mem_cons_of_mem _ hm)
    cases m with
    | chunk c => exact ⟨h.1, ih h.2 hrest hmsg⟩
    | releaseBuf window =>
      refine ⟨h.1, ih h.2 hrest ?_⟩
      rw [releases_releaseBuf, List.length_cons] at hmsg
      rwa [Nat.add_right_comm, Nat.add_assoc]
    | eof => exact absurd List.mem_cons_self heof

/-- A chunk among ordered messages is of a window that is not released yet. -/
theorem Ordered.window_ge {n : Nat} {msgs : List ChunkMsg} {c : Chunk} (h : Ordered n msgs)
    (hc : .chunk c ∈ msgs) : n ≤ c.window := by
  induction msgs generalizing n with
  | nil => cases hc
  | cons m rest ih =>
    cases m with
    | chunk d =>
      rcases List.mem_cons.mp hc with heq | hc
      · cases heq
        exact Nat.le_of_eq h.1.symm
      · exact ih h.2 hc
    | releaseBuf window =>
      rcases List.mem_cons.mp hc with heq | hc
      · cases heq
      · exact Nat.le_of_succ_le (ih h.2 hc)
    | eof =>
      rcases List.mem_cons.mp hc with heq | hc
      · cases heq
      · rw [show rest = [] from h] at hc
        cases hc

/-! ## The invariant -/

/-- The window whose token the reader holds. -/
def held (s : State) : List Nat := if s.reader.bufferCheckedOut then [s.window] else []

/-- Where the tokens taken so far are, window by window: given back by the
decoder, on their way in a flush, held by the reader, given back by the reader. -/
def places (s : State) : List Nat := s.released ++ releases (stream s) ++ held s ++ s.returned

/-- No read is requested, running or waiting to be noticed. -/
def Idle (s : State) : Prop := s.readQueue = false ∧ s.cart = .idle ∧ s.notified = false

/-- The result of a read that went well is the window's buffer. -/
def Fetched (first : Bool) (s : State) : Prop :=
  s.result.ok = true →
    s.result.data = some (bufferOf first s.window) ∧ s.bufIndex = bufferOf first s.taken

/-- The read of the reader's window is requested, in the cartridge reader task's
hands, filling the window's buffer, or done. -/
def Reading (first : Bool) (s : State) : Prop :=
  (s.readQueue = true ∧ s.cart = .idle ∧ s.notified = false ∧
      s.bufIndex = bufferOf first s.window) ∨
    (s.readQueue = false ∧ s.cart = .received ∧ s.notified = false ∧
      s.bufIndex = bufferOf first s.window) ∨
    (s.readQueue = false ∧ s.cart = .filling (bufferOf first s.window) ∧ s.notified = false ∧
      s.bufIndex = bufferOf first s.taken) ∨
    (s.readQueue = false ∧ s.cart = .idle ∧ s.notified = true ∧ Fetched first s)

/-- No message of the reader's window is on its way. -/
def Unread (s : State) : Prop := ∀ c, .chunk c ∈ stream s → c.window < s.window

/-- What the reader relies on, by where it is. -/
def Position (first : Bool) (s : State) : Prop :=
  match s.reader.pc with
  | .loop =>
    Idle s ∧ s.bufIndex = bufferOf first s.taken ∧ s.returned = [] ∧
      (s.reader.rd = none ∧ s.reader.bufferCheckedOut = false ∨
        s.reader.rd = some (bufferOf first s.window) ∧ s.reader.bufferCheckedOut = true)
  | .flushing =>
    Idle s ∧ s.bufIndex = bufferOf first s.taken ∧ s.returned = [] ∧
      s.reader.bufferCheckedOut = true
  | .taking =>
    Idle s ∧ s.bufIndex = bufferOf first s.taken ∧ s.returned = [] ∧
      s.reader.bufferCheckedOut = false
  | .requesting =>
    Idle s ∧ s.bufIndex = bufferOf first s.window ∧ s.returned = [] ∧
      s.reader.bufferCheckedOut = true ∧ Unread s
  | .waiting =>
    Reading first s ∧ s.returned = [] ∧ s.reader.bufferCheckedOut = true ∧ Unread s
  | .resulting =>
    Idle s ∧ s.returned = [] ∧ s.reader.bufferCheckedOut = true ∧ Fetched first s
  | .queueing =>
    Idle s ∧ s.bufIndex = bufferOf first s.taken ∧ s.returned = [] ∧
      s.reader.bufferCheckedOut = true ∧ s.reader.rd = some (bufferOf first s.window)
  | .trackDone => Idle s ∧ (s.reader.bufferCheckedOut = true → s.returned = [])
  | .sendingEof | .ended => Idle s ∧ s.reader.bufferCheckedOut = false

structure Inv (first : Bool) (s : State) : Prop where
  order : Ordered s.released.length (stream s)
  windows : places s = List.range s.taken
  tokens : s.bufPoolSem + (releases (stream s)).length + (held s).length = chunkBufCount
  below : ∀ c, .chunk c ∈ stream s → c.window < s.taken ∧ c.buf = bufferOf first c.window
  eof : .eof ∈ stream s → s.reader.pc = .ended
  drained : s.decoder = .ended true → stream s = [] ∧ s.reader.pc = .ended
  position : Position first s

/-- A reader that holds a token works on the last window taken. -/
theorem Inv.window_eq (hs : Inv first s) (hheld : s.reader.bufferCheckedOut = true)
    (hreturned : s.returned = []) :
    s.window = s.released.length + (releases (stream s)).length ∧ s.window + 1 = s.taken := by
  have hlen := congrArg List.length hs.windows
  simp only [places, held, hheld, if_true, hreturned, List.length_append, List.length_range,
    List.length_cons, List.length_nil] at hlen
  unfold State.window
  omega

/-- A give never finds the semaphore at its limit. -/
theorem give_eq (h : s.bufPoolSem < chunkBufCount) : s.give = s.bufPoolSem + 1 := if_pos h

/-! ## Steps of the decoder -/

theorem position_shrink {d : DecoderPc} {q : List ChunkMsg} {n : Nat} {r : List Nat}
    (h : ∀ c, .chunk c ∈ inHand d ++ q → .chunk c ∈ stream s) (hs : Position first s) :
    Position first { s with decoder := d, chunkQueue := q, bufPoolSem := n, released := r } := by
  cases hpc : s.reader.pc with
  | requesting =>
    simp only [Position, hpc] at hs ⊢
    obtain ⟨hidle, hindex, hreturned, hheld, hunread⟩ := hs
    exact ⟨hidle, hindex, hreturned, hheld, fun c hc => hunread c (h c hc)⟩
  | waiting =>
    simp only [Position, hpc] at hs ⊢
    obtain ⟨hreading, hreturned, hheld, hunread⟩ := hs
    exact ⟨hreading, hreturned, hheld, fun c hc => hunread c (h c hc)⟩
  | loop | flushing | taking | resulting | queueing | trackDone | sendingEof | ended =>
    simp only [Position, hpc] at hs ⊢
    exact hs

/-- The decoder changes where it is, and the messages stay what they are. -/
theorem Inv.hand (hs : Inv first s) {d : DecoderPc} {q : List ChunkMsg}
    (hstream : inHand d ++ q = stream s)
    (hd : d = .ended true → stream s = [] ∧ s.reader.pc = .ended) :
    Inv first { s with decoder := d, chunkQueue := q } := by
  have hsame : stream { s with decoder := d, chunkQueue := q } = stream s := hstream
  refine ⟨?_, ?_, ?_, ?_, ?_, ?_, ?_⟩
  · rw [hsame]
    exact hs.order
  · rw [places, hsame]
    exact hs.windows
  · rw [hsame]
    exact hs.tokens
  · rw [hsame]
    exact hs.below
  · rw [hsame]
    exact hs.eof
  · rw [hsame]
    exact hd
  · refine position_shrink (n := s.bufPoolSem) (r := s.released) (fun c hc => ?_) hs.position
    rwa [hstream] at hc

/-- The decoder is done with a chunk. -/
theorem Inv.dropChunk (hs : Inv first s) {d : DecoderPc} {c : Chunk}
    (hstream : stream s = .chunk c :: s.chunkQueue) (hd : inHand d = []) (hended : d ≠ .ended true) :
    Inv first { s with decoder := d } := by
  have hsame : stream { s with decoder := d } = s.chunkQueue := by
    rw [stream, hd]
    rfl
  have hsub : ∀ m ∈ s.chunkQueue, m ∈ stream s := fun m hm => by
    rw [hstream]
    exact List.mem_cons_of_mem _ hm
  have horder := hs.order
  have hwindows := hs.windows
  have htokens := hs.tokens
  rw [hstream] at horder htokens
  rw [places, hstream] at hwindows
  refine ⟨?_, ?_, ?_, ?_, ?_, fun h => absurd h hended, ?_⟩
  · rw [hsame]
    exact horder.2
  · rw [places, hsame]
    exact hwindows
  · rw [hsame]
    exact htokens
  · rw [hsame]
    exact fun e he => hs.below e (hsub _ he)
  · rw [hsame]
    exact fun he => hs.eof (hsub _ he)
  · refine position_shrink (q := s.chunkQueue) (n := s.bufPoolSem) (r := s.released)
      (fun e he => hsub _ ?_) hs.position
    rwa [hd] at he

/-- The decoder gives the token of the oldest window back. -/
theorem Inv.release (hs : Inv first s) {window : Nat}
    (hstream : stream s = .releaseBuf window :: s.chunkQueue) :
    Inv first { s with
      bufPoolSem := s.give
      released := s.released ++ [window]
      decoder := .receiving } := by
  have hsame : stream { s with
      bufPoolSem := s.give
      released := s.released ++ [window]
      decoder := .receiving } = s.chunkQueue := rfl
  have hsub : ∀ m ∈ s.chunkQueue, m ∈ stream s := fun m hm => by
    rw [hstream]
    exact List.mem_cons_of_mem _ hm
  have horder := hs.order
  have hwindows := hs.windows
  have htokens := hs.tokens
  rw [hstream] at horder htokens
  rw [places, hstream, releases_releaseBuf] at hwindows
  rw [releases_releaseBuf, List.length_cons] at htokens
  refine ⟨?_, ?_, ?_, ?_, ?_, fun h => (by cases h), ?_⟩
  · rw [hsame, List.length_append]
    exact horder.2
  · rw [places, hsame]
    rw [← hwindows]
    simp [held, State.window]
  · rw [hsame, give_eq (by omega)]
    change s.bufPoolSem + 1 + (releases s.chunkQueue).length + (held s).length = chunkBufCount
    omega
  · rw [hsame]
    exact fun e he => hs.below e (hsub _ he)
  · rw [hsame]
    exact fun he => hs.eof (hsub _ he)
  · exact position_shrink (d := .receiving) (q := s.chunkQueue) (n := s.give)
      (r := s.released ++ [window]) (fun e he => hsub _ he) hs.position

/-- The decoder takes the EOF: it was the last message. -/
theorem Inv.takeEof (hs : Inv first s) {rest : List ChunkMsg}
    (hstream : stream s = .eof :: rest) :
    Inv first { s with chunkQueue := rest, decoder := .ended true } := by
  have hrest : rest = [] := by
    have horder := hs.order
    rw [hstream] at horder
    exact horder
  have hended := hs.eof (by rw [hstream]; exact List.mem_cons_self)
  subst hrest
  have hsame : stream { s with chunkQueue := [], decoder := .ended true } = [] := rfl
  have hwindows := hs.windows
  have htokens := hs.tokens
  rw [hstream] at htokens
  rw [places, hstream] at hwindows
  refine ⟨trivial, hwindows, htokens, ?_, ?_, fun _ => ⟨hsame, hended⟩, ?_⟩
  · rw [hsame]
    intro _ h
    cases h
  · rw [hsame]
    intro h
    cases h
  · exact position_shrink (d := .ended true) (q := []) (n := s.bufPoolSem) (r := s.released)
      (fun _ h => by cases h) hs.position

theorem inv_decoder {l : DecoderLabel} (h : decoderStep s l = some t) (hs : Inv first s) :
    Inv first t := by
  cases l with
  | opened ok =>
    simp only [decoderStep] at h
    split at h
    · next hpc =>
      cases h
      refine hs.hand (q := s.chunkQueue) ?_ ?_
      · rw [stream, hpc]
        cases ok <;> rfl
      · cases ok
        all_goals
          intro hne
          cases hne
    · cases h
  | receive =>
    simp only [decoderStep] at h
    split at h
    · next hpc =>
      have hstream : stream s = s.chunkQueue := by
        rw [stream, hpc]
        rfl
      split at h
      · cases h
        exact hs.hand (q := s.chunkQueue) hstream.symm (fun h => by cases h)
      · split at h
        · cases h
        · next rest hqueue =>
          cases h
          exact hs.takeEof (hstream.trans hqueue)
        · next window rest hqueue =>
          cases h
          exact hs.hand (hstream.trans hqueue).symm (fun h => by cases h)
        · next c rest hqueue =>
          cases h
          exact hs.hand (hstream.trans hqueue).symm (fun h => by cases h)
    · cases h
  | release =>
    simp only [decoderStep] at h
    split at h
    · next window hpc =>
      cases h
      refine hs.release ?_
      rw [stream, hpc]
      rfl
    · cases h
  | decoded =>
    simp only [decoderStep] at h
    split at h
    · next c hpc =>
      cases h
      refine hs.dropChunk (c := c) ?_ ?_ ?_
      · rw [stream, hpc]
        rfl
      · split <;> rfl
      · split
        all_goals
          intro h
          cases h
    · cases h

/-! ## Steps of the cartridge reader task -/

theorem Position.idle (hs : Position first s) (hpc : s.reader.pc ≠ .waiting) : Idle s := by
  unfold Position at hs
  split at hs
  on_goal 5 =>
    next h => exact absurd h hpc
  all_goals exact hs.1

theorem cart_not_idle {l : CartLabel} (h : cartStep s l = some t) : ¬ Idle s := by
  rintro ⟨hqueue, hcart, -⟩
  cases l with
  | receive | refuse | seek _ | read _ => simp [cartStep, hqueue, hcart] at h

/-- A read goes on, and the window's buffer is the one whose turn it is. -/
theorem reading_cart {l : CartLabel} (h : cartStep s l = some t) (hs : Reading first s)
    (hwindow : s.window + 1 = s.taken) : Reading first t := by
  unfold Reading at hs
  cases l with
  | receive =>
    simp only [cartStep] at h
    split at h
    · next hcart hqueue =>
      cases h
      rcases hs with ⟨-, -, hnotified, hindex⟩ | ⟨hq, -⟩ | ⟨hq, -⟩ | ⟨hq, -⟩
      · exact .inr (.inl ⟨rfl, rfl, hnotified, hindex⟩)
      all_goals
        rw [hqueue] at hq
        cases hq
    · cases h
  | refuse =>
    simp only [cartStep] at h
    split at h
    · next hcart =>
      cases h
      rcases hs with ⟨-, hc, -⟩ | ⟨hq, -⟩ | ⟨-, hc, -⟩ | ⟨-, hc, -⟩
      · cases hcart.symm.trans hc
      · exact .inr (.inr (.inr ⟨hq, rfl, rfl, fun h => by cases h⟩))
      · cases hcart.symm.trans hc
      · cases hcart.symm.trans hc
    · cases h
  | seek ok =>
    simp only [cartStep] at h
    split at h
    · next hcart =>
      rcases hs with ⟨-, hc, -⟩ | ⟨hq, -, hnotified, hindex⟩ | ⟨-, hc, -⟩ | ⟨-, hc, -⟩
      · cases hcart.symm.trans hc
      · split at h
        · cases h
          refine .inr (.inr (.inl ⟨hq, congrArg CartPc.filling hindex, hnotified, ?_⟩))
          rw [← hwindow, bufferOf, hindex]
        · cases h
          exact .inr (.inr (.inr ⟨hq, rfl, rfl, fun h => by cases h⟩))
      · cases hcart.symm.trans hc
      · cases hcart.symm.trans hc
    · cases h
  | read bytesRead =>
    simp only [cartStep] at h
    split at h
    · next buf hcart =>
      cases h
      rcases hs with ⟨-, hc, -⟩ | ⟨-, hc, -⟩ | ⟨hq, hc, -, hindex⟩ | ⟨-, hc, -⟩
      · cases hcart.symm.trans hc
      · cases hcart.symm.trans hc
      · cases hcart.symm.trans hc
        exact .inr (.inr (.inr ⟨hq, rfl, rfl, fun _ => ⟨rfl, hindex⟩⟩))
      · cases hcart.symm.trans hc
    · cases h

/-- The cartridge reader task touches neither the messages nor the tokens. -/
theorem cart_frame {l : CartLabel} (h : cartStep s l = some t) :
    ∃ queue cart index result notified, t =
      { s with
        readQueue := queue
        cart := cart
        bufIndex := index
        result := result
        notified := notified } := by
  cases l with
  | receive | refuse | read _ =>
    simp only [cartStep] at h
    split at h
    · cases h
      exact ⟨_, _, _, _, _, rfl⟩
    · cases h
  | seek ok =>
    simp only [cartStep] at h
    split at h
    · split at h
      all_goals
        cases h
        exact ⟨_, _, _, _, _, rfl⟩
    · cases h

theorem inv_cart {l : CartLabel} (h : cartStep s l = some t) (hs : Inv first s) : Inv first t := by
  have hpc : s.reader.pc = .waiting := by
    by_contra hpc
    exact cart_not_idle h (hs.position.idle hpc)
  have hposition := hs.position
  simp only [Position, hpc] at hposition
  obtain ⟨hreading, hreturned, hheld, hunread⟩ := hposition
  have hreading' := reading_cart h hreading (hs.window_eq hheld hreturned).2
  obtain ⟨queue, cart, index, result, notified, rfl⟩ := cart_frame h
  refine ⟨hs.order, hs.windows, hs.tokens, hs.below, hs.eof, hs.drained, ?_⟩
  simp only [Position, hpc]
  exact ⟨hreading', hreturned, hheld, hunread⟩

/-! ## Steps of the reader -/

/-- The reader changes where it is, and the token stays where it is. -/
theorem Inv.move (hs : Inv first s) {r : Reader} {q n : Bool} (hpc : s.reader.pc ≠ .ended)
    (hheld : r.bufferCheckedOut = s.reader.bufferCheckedOut)
    (hposition : Position first { s with reader := r, readQueue := q, notified := n }) :
    Inv first { s with reader := r, readQueue := q, notified := n } := by
  have hsame : held { s with reader := r, readQueue := q, notified := n } = held s := by
    unfold held
    rw [hheld]
    rfl
  refine ⟨hs.order, ?_, ?_, hs.below, fun he => absurd (hs.eof he) hpc,
    fun hd => absurd (hs.drained hd).2 hpc, hposition⟩
  · rw [places, hsame]
    exact hs.windows
  · rw [hsame]
    exact hs.tokens

/-- The reader gives its token back, and will take no more. -/
theorem Inv.readerGives (hs : Inv first s) {r : Reader} (hpc : s.reader.pc ≠ .ended)
    (hheld : s.reader.bufferCheckedOut = true) (hreturned : s.returned = []) (hidle : Idle s)
    (hr : r.bufferCheckedOut = false) (hrpc : r.pc = .trackDone ∨ r.pc = .sendingEof) :
    Inv first { s.readerGives with reader := r } := by
  have hwindows := hs.windows
  have htokens := hs.tokens
  simp only [places, held, hheld, hreturned, if_true, List.append_nil] at hwindows
  simp only [held, hheld, if_true, List.length_singleton] at htokens
  have hgone : held { s.readerGives with reader := r } = [] := by
    rw [held, if_neg (by rw [hr]; intro h; cases h)]
  refine ⟨hs.order, ?_, ?_, hs.below, fun he => absurd (hs.eof he) hpc,
    fun hd => absurd (hs.drained hd).2 hpc, ?_⟩
  · rw [places, hgone]
    change s.released ++ releases (stream s) ++ [] ++ (s.returned ++ [s.window]) = List.range s.taken
    rw [hreturned, ← hwindows, List.append_nil, List.nil_append]
  · rw [hgone]
    change s.give + (releases (stream s)).length + 0 = chunkBufCount
    rw [give_eq (by omega)]
    omega
  · rcases hrpc with hrpc | hrpc
    · simp only [Position, hrpc]
      exact ⟨hidle, fun h => by cases hr.symm.trans h⟩
    · simp only [Position, hrpc]
      exact ⟨hidle, hr⟩

/-- The reader takes a token for the next window. -/
theorem Inv.take (hs : Inv first s) (hpc : s.reader.pc = .taking) (hsem : s.bufPoolSem ≠ 0) :
    Inv first { s with
      bufPoolSem := s.bufPoolSem - 1
      taken := s.taken + 1
      reader := { s.reader with pc := .requesting, bufferCheckedOut := true } } := by
  have hended : s.reader.pc ≠ .ended := by rw [hpc]; intro h; cases h
  have hposition := hs.position
  simp only [Position, hpc] at hposition
  obtain ⟨hidle, hindex, hreturned, hheld⟩ := hposition
  have hwindows := hs.windows
  have htokens := hs.tokens
  simp only [places, held, hheld, hreturned, List.append_nil, Bool.false_eq_true, if_false] at hwindows
  simp only [held, hheld, Bool.false_eq_true, if_false, List.length_nil] at htokens
  refine ⟨hs.order, ?_, ?_, fun c hc => ?_, fun he => absurd (hs.eof he) hended,
    fun hd => absurd (hs.drained hd).2 hended, ?_⟩
  · change s.released ++ releases (stream s) ++ [s.taken] ++ s.returned = List.range (s.taken + 1)
    rw [hreturned, hwindows, List.append_nil, List.range_succ]
  · change s.bufPoolSem - 1 + (releases (stream s)).length + 1 = chunkBufCount
    omega
  · exact ⟨Nat.lt_succ_of_lt (hs.below c hc).1, (hs.below c hc).2⟩
  · exact ⟨hidle, hindex, hreturned, rfl, fun c hc => (hs.below c hc).1⟩

/-- The reader queues a message; a flush takes the token along. -/
theorem Inv.send (hs : Inv first s) {r : Reader} {msg : ChunkMsg} (hpc : s.reader.pc ≠ .ended)
    (hmsg : Follows (s.released.length + (releases (stream s)).length) msg)
    (hheld : releases [msg] ++ held { s with reader := r } = held s)
    (hbelow : ∀ c, msg = .chunk c → c.window < s.taken ∧ c.buf = bufferOf first c.window)
    (heof : msg = .eof → r.pc = .ended)
    (hposition : Position first { s with chunkQueue := s.chunkQueue ++ [msg], reader := r }) :
    Inv first { s with chunkQueue := s.chunkQueue ++ [msg], reader := r } := by
  have hstream : stream { s with chunkQueue := s.chunkQueue ++ [msg], reader := r } =
      stream s ++ [msg] := (List.append_assoc ..).symm
  have hnone : .eof ∉ stream s := fun he => hpc (hs.eof he)
  have hwindows := hs.windows
  have htokens := hs.tokens
  rw [places, ← hheld] at hwindows
  rw [← hheld, List.length_append] at htokens
  refine ⟨?_, ?_, ?_, fun c hc => ?_, fun he => ?_, fun hd => absurd (hs.drained hd).2 hpc, hposition⟩
  · rw [hstream]
    exact hs.order.append hnone hmsg
  · rw [places, hstream, releases_append, ← hwindows]
    simp only [List.append_assoc]
    rfl
  · rw [hstream, releases_append, List.length_append]
    change s.bufPoolSem + ((releases (stream s)).length + (releases [msg]).length) +
      (held { s with reader := r }).length = chunkBufCount
    omega
  · rw [hstream, List.mem_append, List.mem_singleton] at hc
    rcases hc with hc | hc
    · exact hs.below c hc
    · exact hbelow c hc.symm
  · rw [hstream, List.mem_append, List.mem_singleton] at he
    rcases he with he | he
    · exact absurd he hnone
    · exact heof he.symm

theorem queueChunk_some {msg : ChunkMsg} (h : s.queueChunk msg = some t) :
    t = { s with chunkQueue := s.chunkQueue ++ [msg] } := by
  unfold State.queueChunk at h
  split at h
  · exact (Option.some.inj h).symm
  · cases h

theorem inv_loop {io : ReaderIo} (hpc : s.reader.pc = .loop) (h : readerStep io s = some t)
    (hs : Inv first s) : Inv first t := by
  have hended : s.reader.pc ≠ .ended := by rw [hpc]; intro h; cases h
  have hposition := hs.position
  simp only [Position, hpc] at hposition
  obtain ⟨hidle, hindex, hreturned, hrd⟩ := hposition
  have hdone : Inv first (s.goto .trackDone) :=
    hs.move (q := s.readQueue) (n := s.notified) hended rfl ⟨hidle, fun _ => hreturned⟩
  simp only [readerStep, hpc] at h
  split at h
  · cases h
    exact hdone
  split at h
  · cases h
    exact hdone
  split at h
  · cases h
    exact hdone
  next chunkStart chunkEnd hbounds =>
  unfold boundedChunk at h
  split at h
  · cases h
  split at h
  · cases h
    refine hs.move (q := s.readQueue) (n := s.notified) hended rfl ?_
    simp only [Position, hpc]
    exact ⟨hidle, hindex, hreturned, hrd⟩
  · -- a chunk that needs a new read closes the window before, if there is one
    cases h
    refine hs.move (q := s.readQueue) (n := s.notified) hended rfl ?_
    rcases hrd with ⟨hrd, hheld⟩ | ⟨hrd, hheld⟩
    · simp only [Position, hrd, Option.isSome_none, Bool.false_and, Bool.false_eq_true, if_false]
      exact ⟨hidle, hindex, hreturned, hheld⟩
    · dsimp only
      split
      · exact ⟨hidle, hindex, hreturned, hheld, hrd⟩
      · simp only [Position, hrd, Option.isSome_some, if_true]
        exact ⟨hidle, hindex, hreturned, hheld⟩

theorem inv_flushing {io : ReaderIo} (hpc : s.reader.pc = .flushing)
    (h : readerStep io s = some t) (hs : Inv first s) : Inv first t := by
  have hended : s.reader.pc ≠ .ended := by rw [hpc]; intro h; cases h
  have hposition := hs.position
  simp only [Position, hpc] at hposition
  obtain ⟨hidle, hindex, hreturned, hheld⟩ := hposition
  simp only [readerStep, hpc] at h
  split at h
  · cases h
    exact hs.move (q := s.readQueue) (n := s.notified) hended rfl ⟨hidle, fun _ => hreturned⟩
  · obtain ⟨u, hu, rfl⟩ := Option.map_eq_some_iff.mp h
    cases queueChunk_some hu
    refine hs.send hended (hs.window_eq hheld hreturned).1 ?_ (fun _ h => by cases h)
      (fun h => by cases h)
      ⟨hidle, hindex, hreturned, rfl⟩
    rw [held, held, hheld]
    rfl

theorem inv_taking {io : ReaderIo} (hpc : s.reader.pc = .taking) (h : readerStep io s = some t)
    (hs : Inv first s) : Inv first t := by
  have hended : s.reader.pc ≠ .ended := by rw [hpc]; intro h; cases h
  have hposition := hs.position
  simp only [Position, hpc] at hposition
  obtain ⟨hidle, hindex, hreturned, hheld⟩ := hposition
  simp only [readerStep, hpc] at h
  split at h
  · cases h
    exact hs.move (q := s.readQueue) (n := s.notified) hended rfl ⟨hidle, fun _ => hreturned⟩
  split at h
  · cases h
  · next hsem =>
    cases h
    exact hs.take hpc hsem

theorem inv_requesting {io : ReaderIo} (hpc : s.reader.pc = .requesting)
    (h : readerStep io s = some t) (hs : Inv first s) : Inv first t := by
  have hended : s.reader.pc ≠ .ended := by rw [hpc]; intro h; cases h
  have hposition := hs.position
  simp only [Position, hpc] at hposition
  obtain ⟨hidle, hindex, hreturned, hheld, hunread⟩ := hposition
  simp only [readerStep, hpc] at h
  split at h
  · cases h
    exact hs.move (q := s.readQueue) (n := s.notified) hended rfl ⟨hidle, fun _ => hreturned⟩
  split at h
  · cases h
    refine hs.move (q := true) (n := s.notified) hended rfl ⟨.inl ?_, hreturned, hheld, hunread⟩
    exact ⟨rfl, hidle.2.1, hidle.2.2, hindex⟩
  · cases h
    exact hs.readerGives hended hheld hreturned hidle rfl (.inl rfl)

theorem inv_waiting {io : ReaderIo} (hpc : s.reader.pc = .waiting) (h : readerStep io s = some t)
    (hs : Inv first s) : Inv first t := by
  have hended : s.reader.pc ≠ .ended := by rw [hpc]; intro h; cases h
  have hposition := hs.position
  simp only [Position, hpc] at hposition
  obtain ⟨hreading, hreturned, hheld, hunread⟩ := hposition
  simp only [readerStep, hpc] at h
  split at h
  · cases h
  next hnotified =>
  have hdone : s.readQueue = false ∧ s.cart = .idle ∧ Fetched first s := by
    rcases hreading with ⟨-, -, hn, -⟩ | ⟨-, -, hn, -⟩ | ⟨-, -, hn, -⟩ | ⟨hq, hc, -, hfetched⟩
    · simp [hn] at hnotified
    · simp [hn] at hnotified
    · simp [hn] at hnotified
    · exact ⟨hq, hc, hfetched⟩
  obtain ⟨hqueue, hcart, hfetched⟩ := hdone
  split at h
  · cases h
    exact hs.move (q := s.readQueue) (n := false) hended rfl
      ⟨⟨hqueue, hcart, rfl⟩, fun _ => hreturned⟩
  · cases h
    exact hs.move (q := s.readQueue) (n := false) hended rfl
      ⟨⟨hqueue, hcart, rfl⟩, hreturned, hheld, hfetched⟩

theorem inv_resulting {io : ReaderIo} (hpc : s.reader.pc = .resulting)
    (h : readerStep io s = some t) (hs : Inv first s) : Inv first t := by
  have hended : s.reader.pc ≠ .ended := by rw [hpc]; intro h; cases h
  have hposition := hs.position
  simp only [Position, hpc] at hposition
  obtain ⟨hidle, hreturned, hheld, hfetched⟩ := hposition
  simp only [readerStep, hpc] at h
  split at h
  · cases h
    exact hs.readerGives hended hheld hreturned hidle rfl (.inl rfl)
  · next hbad =>
    cases h
    simp only [Bool.or_eq_true, Bool.not_eq_true', decide_eq_true_eq, not_or,
      Bool.not_eq_false] at hbad
    obtain ⟨hdata, hindex⟩ := hfetched hbad.1
    exact hs.move (q := s.readQueue) (n := s.notified) hended rfl
      ⟨hidle, hindex, hreturned, hheld, hdata⟩

theorem inv_queueing {io : ReaderIo} (hpc : s.reader.pc = .queueing)
    (h : readerStep io s = some t) (hs : Inv first s) : Inv first t := by
  have hended : s.reader.pc ≠ .ended := by rw [hpc]; intro h; cases h
  have hposition := hs.position
  simp only [Position, hpc] at hposition
  obtain ⟨hidle, hindex, hreturned, hheld, hrd⟩ := hposition
  obtain ⟨hwindow, htaken⟩ := hs.window_eq hheld hreturned
  simp only [readerStep, hpc] at h
  split at h
  · cases h
    exact hs.move (q := s.readQueue) (n := s.notified) hended rfl ⟨hidle, fun _ => hreturned⟩
  · obtain ⟨u, hu, rfl⟩ := Option.map_eq_some_iff.mp h
    cases queueChunk_some hu
    refine hs.send hended hwindow rfl (fun c hc => ?_) (fun h => by cases h)
      ⟨hidle, hindex, hreturned, .inr ⟨hrd, hheld⟩⟩
    cases hc
    refine ⟨?_, ?_⟩
    · change s.window < s.taken
      omega
    · dsimp only
      rw [hrd, Option.getD_some]

theorem inv_reader {io : ReaderIo} (h : readerStep io s = some t) (hs : Inv first s) :
    Inv first t := by
  cases hpc : s.reader.pc with
  | loop => exact inv_loop hpc h hs
  | flushing => exact inv_flushing hpc h hs
  | taking => exact inv_taking hpc h hs
  | requesting => exact inv_requesting hpc h hs
  | waiting => exact inv_waiting hpc h hs
  | resulting => exact inv_resulting hpc h hs
  | queueing => exact inv_queueing hpc h hs
  | trackDone =>
    have hended : s.reader.pc ≠ .ended := by rw [hpc]; intro h; cases h
    have hposition := hs.position
    simp only [Position, hpc] at hposition
    obtain ⟨hidle, hreturned⟩ := hposition
    simp only [readerStep, hpc] at h
    split at h
    · next hheld =>
      cases h
      exact hs.readerGives hended hheld (hreturned hheld) hidle rfl (.inr rfl)
    · next hheld =>
      cases h
      exact hs.move (q := s.readQueue) (n := s.notified) hended rfl
        ⟨hidle, Bool.eq_false_iff.mpr hheld⟩
  | sendingEof =>
    have hended : s.reader.pc ≠ .ended := by rw [hpc]; intro h; cases h
    have hposition := hs.position
    simp only [Position, hpc] at hposition
    obtain ⟨hidle, hheld⟩ := hposition
    simp only [readerStep, hpc] at h
    split at h
    · cases h
      exact hs.move (q := s.readQueue) (n := s.notified) hended rfl ⟨hidle, hheld⟩
    · obtain ⟨u, hu, rfl⟩ := Option.map_eq_some_iff.mp h
      cases queueChunk_some hu
      exact hs.send (r := { s.reader with pc := .ended }) hended trivial rfl (fun _ h => by cases h)
        (fun _ => rfl)
        ⟨hidle, hheld⟩
  | ended =>
    simp only [readerStep, hpc] at h
    cases h

theorem inv_step {a : Action} (hs : Inv first s) (h : step s a = some t) : Inv first t := by
  cases a with
  | reader io => exact inv_reader h hs
  | cart l => exact inv_cart h hs
  | decoder l => exact inv_decoder h hs
  | requestStop =>
    cases h
    exact ⟨hs.order, hs.windows, hs.tokens, hs.below, hs.eof, hs.drained, hs.position⟩

theorem inv_init (lookupTableLen startChunk : Nat) (bufIndex : Bool) (result : ReadResult) :
    Inv bufIndex (initState lookupTableLen startChunk bufIndex result) :=
  ⟨trivial, rfl, rfl, fun _ h => (by cases h), fun h => (by cases h), fun h => (by cases h), ⟨rfl,
   rfl, rfl⟩, rfl, rfl, .inl ⟨rfl, rfl⟩⟩

/-! ## Safety of the buffers, and where the tokens go -/

/-- A read fills the buffer of a window that is at most one ahead of every
message on its way. -/
theorem Inv.exclusive (hs : Inv first s) {buf : Bool} {c : Chunk} (hcart : s.cart = .filling buf)
    (hc : .chunk c ∈ stream s) : c.buf ≠ buf := by
  have hpc : s.reader.pc = .waiting := by
    by_contra hpc
    cases (hs.position.idle hpc).2.1.symm.trans hcart
  have hposition := hs.position
  simp only [Position, hpc] at hposition
  obtain ⟨hreading, hreturned, hheld, hunread⟩ := hposition
  have hbuf : buf = bufferOf first s.window := by
    rcases hreading with ⟨-, hcart', -⟩ | ⟨-, hcart', -⟩ | ⟨-, hcart', -⟩ | ⟨-, hcart', -⟩
    · cases hcart.symm.trans hcart'
    · cases hcart.symm.trans hcart'
    · cases hcart.symm.trans hcart'
      rfl
    · cases hcart.symm.trans hcart'
  -- the other token bounds how far the read is ahead
  have htokens := hs.tokens
  simp only [held, hheld, if_true, List.length_singleton, chunkBufCount] at htokens
  have hwindow := (hs.window_eq hheld hreturned).1
  have hge := hs.order.window_ge hc
  have hlt := hunread c hc
  have hnext : s.window = c.window + 1 := by omega
  rw [hbuf, (hs.below c hc).2, hnext]
  exact bufferOf_ne first c.window

/-- Every token taken so far has been given back exactly once. -/
def GivenBackOnce (s : State) : Prop := ∀ window < s.taken, (s.released ++ s.returned).count window = 1

instance : Decidable (GivenBackOnce s) := inferInstanceAs (Decidable (∀ window < s.taken, _))

theorem givenBackOnce_of_eq (h : s.released ++ s.returned = List.range s.taken) :
    GivenBackOnce s := by
  intro window hwindow
  rw [h]
  exact List.count_eq_one_of_mem List.nodup_range (List.mem_range.mpr hwindow)

/-- **The two buffers and the two tokens.** In every run of one generation, for
any layout of the track and any interleaving: while a read fills a buffer, no
message that points into it is queued or being decoded. The token of each window
is at any time in one place, given back by the decoder, on its way in a flush,
held by the reader or given back by the reader, and the semaphore counts the
others. A session that the decoder ends at the EOF has given every token back
exactly once and leaves the semaphore at two. -/
theorem read_pipeline_safe (lookupTableLen startChunk : Nat) (bufIndex : Bool)
    (result : ReadResult) {as : List Action} {s : State}
    (hrun : run step (initState lookupTableLen startChunk bufIndex result) as = some s) :
    (∀ buf c, s.cart = .filling buf → .chunk c ∈ stream s → c.buf ≠ buf) ∧
      (places s = List.range s.taken ∧
        s.bufPoolSem + (releases (stream s)).length + (held s).length = chunkBufCount) ∧
      (s.decoder = .ended true → GivenBackOnce s ∧ s.bufPoolSem = chunkBufCount) := by
  have hinv : Inv bufIndex s :=
    run_invariant (fun _ _ _ hs _ h => inv_step hs h) (inv_init ..) (along_true as) hrun
  refine ⟨fun buf c => hinv.exclusive, ⟨hinv.windows, hinv.tokens⟩, fun hended => ?_⟩
  obtain ⟨hstream, hpc⟩ := hinv.drained hended
  have hposition := hinv.position
  simp only [Position, hpc] at hposition
  have hwindows := hinv.windows
  have htokens := hinv.tokens
  rw [places, hstream, held, if_neg (by rw [hposition.2]; intro h; cases h)] at hwindows
  rw [hstream, held, if_neg (by rw [hposition.2]; intro h; cases h)] at htokens
  refine ⟨givenBackOnce_of_eq ?_, htokens⟩
  rw [← hwindows, releases_nil, List.append_nil, List.append_nil]

/-! ## A session that is stopped -/

/-- What the reader's calls answer when the chunk at hand has these bounds. -/
def chunkAt (chunkStart chunkEnd : Nat) : Action :=
  .reader ⟨some (chunkStart, chunkEnd), true, false⟩

/-- The reader's calls succeed, and no wait times out. -/
def readerOn : Action := .reader ⟨none, true, false⟩

/-- The first window is read and its one chunk is queued. -/
def firstWindow : List Action :=
  [.decoder (.opened true), chunkAt 0 100, readerOn, readerOn, .cart .receive, .cart (.seek true),
    .cart (.read 100), readerOn, readerOn, readerOn]

/-- The track ends there: the decoder takes the chunk and the EOF. -/
def playedOut : List Action :=
  firstWindow ++ [readerOn, readerOn, readerOn, .decoder .receive, .decoder .decoded,
    .decoder .receive]

/-- The reader closes the window, and both tasks see a stop before the decoder
takes a message. -/
def stopped : List Action :=
  firstWindow ++ [chunkAt 100 200, readerOn, readerOn, .requestStop, readerOn, readerOn,
    .reader ⟨none, true, true⟩, .decoder .receive]

theorem read_pipeline_safe_playedOut :
    ∃ s, run step (initState 1 0 false ⟨none, 0, false⟩) playedOut = some s ∧
      s.decoder = .ended true ∧ GivenBackOnce s ∧ s.bufPoolSem = chunkBufCount := by
  have hchecked : ((run step (initState 1 0 false ⟨none, 0, false⟩) playedOut).map fun s =>
      s.decoder) = some (.ended true) := by
    decide +kernel
  obtain ⟨s, hrun, hended⟩ := Option.map_eq_some_iff.mp hchecked
  exact ⟨s, hrun, hended, (read_pipeline_safe 1 0 false ⟨none, 0, false⟩ hrun).2.2 hended⟩

/-- **A stop leaves a token in the queue**: both sessions are over, and the flush
of the first window was never received. -/
theorem token_left_by_stop :
    ¬ ∀ (lookupTableLen startChunk : Nat) (bufIndex : Bool) (result : ReadResult)
      (as : List Action) (s : State),
      run step (initState lookupTableLen startChunk bufIndex result) as = some s →
      (∀ buf c, s.cart = .filling buf → .chunk c ∈ stream s → c.buf ≠ buf) ∧
        (∀ byEof, s.reader.pc = .ended → s.decoder = .ended byEof → GivenBackOnce s) ∧
        (s.decoder = .ended true → s.bufPoolSem = chunkBufCount) := by
  intro h
  have hchecked : ((run step (initState 2 0 false ⟨none, 0, false⟩) stopped).map fun s =>
      (s.reader.pc, s.decoder, decide (GivenBackOnce s))) =
        some (.ended, .ended false, false) := by
    decide +kernel
  obtain ⟨s, hrun, hs⟩ := Option.map_eq_some_iff.mp hchecked
  simp only [Prod.mk.injEq, decide_eq_false_iff_not] at hs
  obtain ⟨hreader, hdecoder, hnot⟩ := hs
  exact hnot ((h 2 0 false _ stopped s hrun).2.1 false hreader hdecoder)

end Jukeboy.Player.DoubleBuffer
