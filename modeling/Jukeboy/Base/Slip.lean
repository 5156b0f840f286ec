import Mathlib.Data.List.Infix
import Mathlib.Tactic.Common

/-! # SLIP framing

A packet travels between two END bytes, with the two bytes that have a meaning of
their own replaced by pairs. A reader waits for an END, collects bytes, and gives a
frame when the next END finds any. What the reader makes of a stream of frames does
not depend on what came before it, but for its first frame. -/
namespace Jukeboy.Base.Slip

abbrev Bytes := List UInt8

def slipEnd : UInt8 := 0xC0
def slipEsc : UInt8 := 0xDB
def slipEscEnd : UInt8 := 0xDC
def slipEscEsc : UInt8 := 0xDD

/-- A byte of a packet, as it travels. -/
def escape (c : UInt8) : Bytes :=
  if c = slipEnd then [slipEsc, slipEscEnd]
  else if c = slipEsc then [slipEsc, slipEscEsc]
  else [c]

/-- The byte after an ESC; one that means nothing there stands for itself. -/
def unescape (c : UInt8) : UInt8 :=
  if c = slipEscEnd then slipEnd else if c = slipEscEsc then slipEsc else c

def frame (p : Bytes) : Bytes := slipEnd :: (p.flatMap escape ++ [slipEnd])

def stream (ps : List Bytes) : Bytes := ps.flatMap frame

/-! ## The reader -/

/-- Outside a frame, or inside with the bytes so far and whether an ESC came last. -/
inductive Reader where
  | outside
  | inside (got : Bytes) (escaped : Bool)
deriving DecidableEq, Repr

namespace Reader

/-- One byte: the reader after it, and the frame it completes. -/
def take : Reader → UInt8 → Reader × Option Bytes
  | .outside, c => (if c = slipEnd then .inside [] false else .outside, none)
  | .inside got true, c => (.inside (got ++ [unescape c]) false, none)
  | .inside got false, c =>
    if c = slipEnd then
      if got = [] then (.inside [] false, none) else (.outside, some got)
    else if c = slipEsc then (.inside got true, none)
    else (.inside (got ++ [c]) false, none)

/-- The frames that bytes complete, and the reader after them. -/
def read : Reader → Bytes → List Bytes × Reader
  | r, [] => ([], r)
  | r, c :: cs => ((r.take c).2.toList ++ ((r.take c).1.read cs).1, ((r.take c).1.read cs).2)

/-- The bytes of the frame that is open. -/
def held : Reader → Bytes
  | .outside => []
  | .inside got _ => got

/-- Whether a frame is open, as a number. -/
def opened : Reader → Nat
  | .outside => 0
  | .inside .. => 1

/-- At every point of the bytes the open frame is within the limit. -/
def Within (limit : Nat) : Reader → Bytes → Prop
  | r, [] => r.held.length ≤ limit
  | r, c :: cs => r.held.length ≤ limit ∧ (r.take c).1.Within limit cs

instance decidableWithin (limit : Nat) : ∀ r bytes, Decidable (Within limit r bytes)
  | r, [] => inferInstanceAs (Decidable (r.held.length ≤ limit))
  | r, c :: cs =>
    have := decidableWithin limit (r.take c).1 cs
    inferInstanceAs (Decidable (r.held.length ≤ limit ∧ (r.take c).1.Within limit cs))

variable {r : Reader} {got p : Bytes} {limit : Nat}

theorem read_append (r : Reader) (a b : Bytes) :
    r.read (a ++ b) = ((r.read a).1 ++ ((r.read a).2.read b).1, ((r.read a).2.read b).2) := by
  induction a generalizing r with
  | nil => rfl
  | cons c a ih =>
    rw [List.cons_append, read, ih]
    simp only [read, List.append_assoc]

theorem within_append {a b : Bytes} :
    r.Within limit (a ++ b) ↔ r.Within limit a ∧ (r.read a).2.Within limit b := by
  induction a generalizing r with
  | nil =>
    refine ⟨fun h => ⟨?_, h⟩, fun h => h.2⟩
    cases b with
    | nil => exact h
    | cons c b => exact h.1
  | cons c a ih =>
    rw [List.cons_append, Within, ih, Within, read]
    exact and_assoc.symm

/-! ## Frames -/

theorem read_escape (got : Bytes) (c : UInt8) :
    (inside got false).read (escape c) = ([], inside (got ++ [c]) false) := by
  unfold escape
  split
  · next h => rw [h]; rfl
  · next hend =>
    split
    · next h => rw [h]; rfl
    · next hesc =>
      simp only [read, take, if_neg hend, if_neg hesc]
      rfl

theorem read_flatMap_escape (got p : Bytes) :
    (inside got false).read (p.flatMap escape) = ([], inside (got ++ p) false) := by
  induction p generalizing got with
  | nil => simp [read]
  | cons c p ih =>
    rw [List.flatMap_cons, read_append, read_escape, ih]
    simp

theorem slipEnd_not_mem_escape (c : UInt8) : slipEnd ∉ escape c := by
  unfold escape
  split
  · decide
  · next hend =>
    split
    · decide
    · rw [List.mem_singleton]
      exact fun h => hend h.symm

/-- Outside a frame, bytes without an END go by. -/
theorem read_outside {bytes : Bytes} (h : slipEnd ∉ bytes) : outside.read bytes = ([], outside) := by
  induction bytes with
  | nil => rfl
  | cons c bytes ih =>
    rw [List.mem_cons, not_or] at h
    have hc : ¬ c = slipEnd := fun heq => h.1 heq.symm
    simp only [read, take, if_neg hc, ih h.2]
    rfl

theorem read_outside_escaped (p : Bytes) : outside.read (p.flatMap escape) = ([], outside) := by
  refine read_outside fun hmem => ?_
  obtain ⟨c, -, hc⟩ := List.mem_flatMap.mp hmem
  exact slipEnd_not_mem_escape c hc

/-- The closing END of a frame that holds bytes. -/
theorem take_end (h : got ≠ []) : (inside got false).take slipEnd = (outside, some got) := by
  simp only [take, if_true, if_neg h]

theorem read_end (h : got ≠ []) : (inside got false).read [slipEnd] = ([got], outside) := by
  rw [read, take_end h]
  rfl

/-- What the reader makes of the body of a frame and its closing END. -/
theorem read_body (h : got ++ p ≠ []) :
    (inside got false).read (p.flatMap escape ++ [slipEnd]) = ([got ++ p], outside) := by
  rw [read_append, read_flatMap_escape, read_end h]
  rfl

/-- Between frames, and right after an END, a frame is read as it was sent. -/
theorem read_frame (hp : p ≠ []) (hr : r = outside ∨ r = inside [] false) :
    r.read (frame p) = ([p], outside) := by
  have hbody : (inside [] false).read (p.flatMap escape ++ [slipEnd]) = ([p], outside) :=
    read_body hp
  rcases hr with rfl | rfl
  · exact hbody
  · exact hbody

/-- In a frame that holds bytes, a frame closes it and leaves its own END open. -/
theorem read_frame_misaligned (h : got ≠ []) :
    (inside got false).read (frame p) = ([got], inside [] false) := by
  rw [frame, read, take_end h, read_append, read_outside_escaped]
  rfl

/-- A pending ESC takes the END of a frame for a byte. -/
theorem read_frame_escaped (got p : Bytes) :
    (inside got true).read (frame p) = ([got ++ slipEnd :: p], outside) := by
  have htake : (inside got true).take slipEnd = (inside (got ++ [slipEnd]) false, none) := rfl
  have hne : (got ++ [slipEnd]) ++ p ≠ [] := by simp
  rw [frame, read, htake, read_body hne]
  simp

theorem read_stream {ps : List Bytes} (hps : ∀ p ∈ ps, p ≠ [])
    (hr : r = outside ∨ r = inside [] false) :
    (r.read (stream ps)).1 = ps := by
  induction ps generalizing r with
  | nil => rfl
  | cons p ps ih =>
    have hrest := ih (fun q hq => hps q (List.mem_cons_of_mem p hq)) (.inl rfl)
    rw [stream, List.flatMap_cons, read_append, read_frame (hps p List.mem_cons_self) hr]
    exact congrArg (p :: ·) hrest

/-! ## Frames within a limit -/

theorem within_escape (c : UInt8) (h : got.length < limit) :
    (inside got false).Within limit (escape c) := by
  have hgot : got.length ≤ limit := h.le
  have hnext : ∀ d : UInt8, (got ++ [d]).length ≤ limit := fun d => by
    rw [List.length_append]
    exact h
  unfold escape
  split
  · exact ⟨hgot, hgot, hnext slipEnd⟩
  · next hend =>
    split
    · exact ⟨hgot, hgot, hnext slipEsc⟩
    · next hesc =>
      have htake : (inside got false).take c = (inside (got ++ [c]) false, none) := by
        simp only [take, if_neg hend, if_neg hesc]
      rw [Within, htake]
      exact ⟨hgot, hnext c⟩

theorem within_flatMap_escape (h : got.length + p.length ≤ limit) :
    (inside got false).Within limit (p.flatMap escape) := by
  induction p generalizing got with
  | nil => exact h
  | cons c p ih =>
    rw [List.length_cons] at h
    rw [List.flatMap_cons, within_append, read_escape]
    refine ⟨within_escape c (by omega), ih ?_⟩
    rw [List.length_append, List.length_singleton]
    omega

theorem within_stream {ps : List Bytes} (hps : ∀ p ∈ ps, p ≠ [] ∧ p.length ≤ limit) :
    outside.Within limit (stream ps) := by
  induction ps with
  | nil => exact Nat.zero_le _
  | cons p ps ih =>
    obtain ⟨hp, hlen⟩ := hps p List.mem_cons_self
    have hrest := ih fun q hq => hps q (List.mem_cons_of_mem p hq)
    rw [stream, List.flatMap_cons, within_append, read_frame hp (.inl rfl)]
    refine ⟨⟨Nat.zero_le _, within_append.mpr ⟨?_, ?_⟩⟩, hrest⟩
    · exact within_flatMap_escape (by simpa using hlen)
    · have hbody := read_flatMap_escape [] p
      change ((inside [] false).read (p.flatMap escape)).2.Within limit [slipEnd]
      rw [hbody]
      refine ⟨by simpa [held] using hlen, ?_⟩
      rw [List.nil_append, take_end hp]
      exact Nat.zero_le _

/-- A run of plain bytes is within the limit only if the frame holds them all. -/
theorem within_replicate {c : UInt8} {k : Nat} (hend : c ≠ slipEnd) (hesc : c ≠ slipEsc)
    (h : (inside got false).Within limit (List.replicate k c)) : got.length + k ≤ limit := by
  induction k generalizing got with
  | zero => exact h
  | succ k ih =>
    have htake : (inside got false).take c = (inside (got ++ [c]) false, none) := by
      simp only [take, if_neg hend, if_neg hesc]
    rw [List.replicate_succ, Within, htake] at h
    have hrest := ih h.2
    rw [List.length_append, List.length_singleton] at hrest
    omega

/-! ## Streams behind other bytes -/

/-- **Resynchronisation.** Whatever a reader came from, it gives a stream of frames
as they were sent, but for the first and at most one frame before them. -/
theorem read_stream_resync {ps : List Bytes} (hps : ∀ p ∈ ps, p ≠ []) (r : Reader) :
    ∃ garbage kept, (r.read (stream ps)).1 = garbage ++ kept ∧ (kept = ps ∨ kept = ps.tail) ∧
      garbage.length ≤ r.opened := by
  cases ps with
  | nil => exact ⟨[], [], rfl, .inl rfl, Nat.zero_le _⟩
  | cons p ps =>
    have hrest : ∀ q ∈ ps, q ≠ [] := fun q hq => hps q (List.mem_cons_of_mem p hq)
    cases r with
    | outside => exact ⟨[], p :: ps, read_stream hps (.inl rfl), .inl rfl, Nat.le_refl _⟩
    | inside got escaped =>
      cases escaped with
      | true =>
        refine ⟨[got ++ slipEnd :: p], ps, ?_, .inr rfl, Nat.le_refl _⟩
        rw [stream, List.flatMap_cons, read_append, read_frame_escaped]
        exact congrArg (_ :: ·) (read_stream hrest (.inl rfl))
      | false =>
        by_cases hgot : got = []
        · rw [hgot]
          exact ⟨[], p :: ps, read_stream hps (.inr rfl), .inl rfl, Nat.zero_le _⟩
        · refine ⟨[got], ps, ?_, .inr rfl, Nat.le_refl _⟩
          rw [stream, List.flatMap_cons, read_append, read_frame_misaligned hgot]
          exact congrArg (_ :: ·) (read_stream hrest (.inr rfl))

/-- A byte completes a frame or opens one only if it is an END. -/
theorem take_length_le (r : Reader) (c : UInt8) :
    (r.take c).2.toList.length + (r.take c).1.opened ≤ r.opened + if c = slipEnd then 1 else 0 := by
  cases r with
  | outside => by_cases hend : c = slipEnd <;> simp [take, hend, opened]
  | inside got escaped =>
    cases escaped with
    | true => simp [take, opened]
    | false =>
      by_cases hend : c = slipEnd
      · by_cases hgot : got = [] <;> simp [take, hend, hgot, opened]
      · by_cases hesc : c = slipEsc
        · have hne : slipEsc ≠ slipEnd := by decide
          simp [take, hesc, hne, opened]
        · simp [take, hend, hesc, opened]

/-- Every frame the reader gives was opened by an END of its own. -/
theorem read_length_le (r : Reader) (bytes : Bytes) :
    (r.read bytes).1.length + (r.read bytes).2.opened ≤ r.opened + bytes.count slipEnd := by
  induction bytes generalizing r with
  | nil => simp [read]
  | cons c bytes ih =>
    have htake := take_length_le r c
    have hrest := ih (r.take c).1
    have hcount : (c :: bytes).count slipEnd =
        bytes.count slipEnd + if c = slipEnd then 1 else 0 := by
      rw [List.count_cons]
      simp only [beq_iff_eq]
    simp only [read, List.length_append, hcount]
    omega

end Reader

end Jukeboy.Base.Slip
