import Mathlib.Data.List.Basic
import Mathlib.Tactic.Common

/-! # Reading frames out of a stream

A reader looks at the start of its buffer: it waits for more, skips something, or takes
a frame. A frame in front of anything is taken whole, a part of one makes the reader
wait, and a noise byte before a frame is waited on or skipped. Then the frames of a
stream are taken once and in order, however the stream is cut. -/
namespace Jukeboy.Base.Framing

variable {β φ : Type}

/-- What a reader does with its buffer. -/
inductive Found (β : Type) where
  | wait
  | skip (rest : List β)
  | frame (raw rest : List β)
deriving DecidableEq, Repr

/-- The reader's loop: the frames it takes and what it leaves. -/
def read (find : List β → Found β) : Nat → List β → List (List β) × List β
  | 0, buffer => ([], buffer)
  | fuel + 1, buffer =>
    match find buffer with
    | .wait => ([], buffer)
    | .skip rest => read find fuel rest
    | .frame raw rest =>
      let (raws, left) := read find fuel rest
      (raw :: raws, left)

/-- A reader of encoded frames; the byte that starts them; how much the reader wants to
see behind a byte before it skips it. -/
structure Reads (find : List β → Found β) (encode : φ → List β) (WellFormed : φ → Prop)
    (start : β) (ahead : Nat) : Prop where
  nil : find [] = .wait
  frame : ∀ f, WellFormed f → ∀ rest, find (encode f ++ rest) = .frame (encode f) rest
  wait : ∀ f, WellFormed f → ∀ p t more, p ++ t = encode f ++ more →
    p.length < (encode f).length → find p = .wait
  first : ∀ f, WellFormed f → (encode f).head? = some start
  long : ∀ f, WellFormed f → ahead ≤ (encode f).length
  noise : ∀ rest, (∀ b ∈ rest.head?, b = start) →
    find (start :: rest) = if rest.length < ahead then .wait else .skip rest

section

variable (encode : φ → List β)

def stream (frames : List φ) : List β := frames.flatMap encode

/-- `left` is the part of the next frame that has arrived. -/
def Partial (frames : List φ) (left : List β) : Prop :=
  match frames with
  | [] => left = []
  | f :: _ => left.length < (encode f).length

/-- The frames that are whole after a number of bytes. -/
def whole : List φ → Nat → List φ
  | [], _ => []
  | f :: frames, n =>
    if (encode f).length ≤ n then f :: whole frames (n - (encode f).length) else []

end

variable {find : List β → Found β} {encode : φ → List β} {WellFormed : φ → Prop} {start : β}
  {ahead : Nat} {frames done rest : List φ} {left data t : List β}

@[simp] theorem stream_nil : stream encode [] = [] := rfl

@[simp] theorem stream_cons (f : φ) (frames : List φ) :
    stream encode (f :: frames) = encode f ++ stream encode frames := rfl

theorem stream_append (done rest : List φ) :
    stream encode (done ++ rest) = stream encode done ++ stream encode rest :=
  List.flatMap_append

theorem exists_of_append_eq {a b c d : List β} (h : a ++ b = c ++ d) (hlen : c.length ≤ a.length) :
    ∃ e, a = c ++ e ∧ e ++ b = d := by
  obtain ⟨e, rfl, rfl⟩ | ⟨e, rfl, rfl⟩ := List.append_eq_append_iff.mp h
  · have he : e = [] := by
      rw [List.length_append] at hlen
      exact List.length_eq_zero_iff.mp (by omega)
    exact ⟨[], by simp [he], by simp [he]⟩
  · exact ⟨e, rfl, rfl⟩

/-- A prefix of a stream is some whole frames and a part of the next one. -/
theorem split_prefix {b : List β} (h : b ++ t = stream encode frames) :
    ∃ done rest left, frames = done ++ rest ∧ b = stream encode done ++ left ∧
      left ++ t = stream encode rest ∧ Partial encode rest left := by
  induction frames generalizing b with
  | nil =>
    obtain ⟨rfl, rfl⟩ := List.append_eq_nil_iff.mp h
    exact ⟨[], [], [], rfl, rfl, rfl, rfl⟩
  | cons f frames ih =>
    by_cases hlt : b.length < (encode f).length
    · exact ⟨[], f :: frames, b, rfl, rfl, h, hlt⟩
    · obtain ⟨e, rfl, he⟩ := exists_of_append_eq h (Nat.le_of_not_lt hlt)
      obtain ⟨done, rest, left, rfl, rfl, hleft, hpart⟩ := ih he
      exact ⟨f :: done, rest, left, rfl, by rw [stream_cons, List.append_assoc], hleft, hpart⟩

theorem whole_append (hpart : Partial encode rest left) :
    whole encode (done ++ rest) (stream encode done ++ left).length = done := by
  induction done with
  | nil =>
    cases rest with
    | nil => rfl
    | cons f rest => exact if_neg (Nat.not_le_of_lt hpart)
  | cons f done ih =>
    rw [stream_cons, List.append_assoc, List.cons_append, whole, List.length_append,
      if_pos (Nat.le_add_right _ _), Nat.add_sub_cancel_left, ih]

/-! ## One reading -/

variable (hreads : Reads find encode WellFormed start ahead)

include hreads

/-- A part of a frame is left as it is. -/
theorem read_partial (hwf : ∀ f ∈ rest, WellFormed f) (hpart : Partial encode rest left)
    (hleft : left ++ t = stream encode rest) (fuel : Nat) : read find fuel left = ([], left) := by
  cases fuel with
  | zero => rfl
  | succ fuel =>
    have hwait : find left = .wait := by
      cases rest with
      | nil => rw [show left = [] from hpart, hreads.nil]
      | cons f rest => exact hreads.wait f (hwf f List.mem_cons_self) left t _ hleft hpart
    rw [read, hwait]

/-- The whole frames are taken. -/
theorem read_stream (hwf : ∀ f ∈ done ++ rest, WellFormed f) (hpart : Partial encode rest left)
    (hleft : left ++ t = stream encode rest) {fuel : Nat} (hfuel : done.length ≤ fuel) :
    read find fuel (stream encode done ++ left) = (done.map encode, left) := by
  induction done generalizing fuel with
  | nil => exact read_partial hreads hwf hpart hleft fuel
  | cons f done ih =>
    obtain ⟨fuel, rfl⟩ : ∃ n, fuel = n + 1 := ⟨fuel - 1, by simp at hfuel; omega⟩
    have hrest := ih (fun g hg => hwf g (List.mem_cons_of_mem f hg))
      (show done.length ≤ fuel by simpa using hfuel)
    rw [stream_cons, List.append_assoc, read, hreads.frame f (hwf f List.mem_cons_self)]
    simp only [hrest, List.map_cons]

/-- What comes next in a stream begins with the byte that starts frames. -/
theorem head_stream (hwf : ∀ f ∈ frames, WellFormed f) {b : List β}
    (h : b ++ t = stream encode frames) : ∀ c ∈ b.head?, c = start := by
  intro c hc
  cases frames with
  | nil =>
    rw [(List.append_eq_nil_iff.mp h).1] at hc
    cases hc
  | cons f frames =>
    have hhead := congrArg List.head? h
    rw [List.head?_append, Option.mem_def.mp hc, stream_cons, List.head?_append,
      hreads.first f (hwf f List.mem_cons_self)] at hhead
    exact Option.some.inj hhead

/-- **Noise.** In front of a stream it is skipped, or waited on where nothing is whole. -/
theorem read_noise (hwf : ∀ f ∈ done ++ rest, WellFormed f) (hpart : Partial encode rest left)
    (hleft : left ++ t = stream encode rest) (n : Nat) {fuel : Nat}
    (hfuel : n + done.length ≤ fuel) :
    ∃ n', read find fuel (List.replicate n start ++ (stream encode done ++ left)) =
      (done.map encode, List.replicate n' start ++ left) := by
  induction n generalizing fuel with
  | zero =>
    rw [Nat.zero_add] at hfuel
    exact ⟨0, read_stream hreads hwf hpart hleft hfuel⟩
  | succ n ih =>
    obtain ⟨fuel, rfl⟩ : ∃ k, fuel = k + 1 := ⟨fuel - 1, by omega⟩
    have hhead : ∀ b ∈ (List.replicate n start ++ (stream encode done ++ left)).head?,
        b = start := by
      cases n with
      | zero =>
        refine head_stream hreads (t := t) hwf ?_
        rw [List.replicate_zero, List.nil_append, List.append_assoc, hleft, stream_append]
      | succ n =>
        intro b hb
        exact (Option.some.inj hb).symm
    rw [List.replicate_succ, List.cons_append, read, hreads.noise _ hhead]
    by_cases hshort : (List.replicate n start ++ (stream encode done ++ left)).length < ahead
    · rw [if_pos hshort]
      cases done with
      | nil => exact ⟨n + 1, rfl⟩
      | cons f done =>
        have hlong := hreads.long f (hwf f List.mem_cons_self)
        rw [stream_cons, List.length_append, List.length_append, List.length_append] at hshort
        omega
    · rw [if_neg hshort]
      exact ih (by omega)

theorem length_le_stream (hwf : ∀ f ∈ done, WellFormed f) :
    done.length ≤ (stream encode done).length := by
  induction done with
  | nil => exact Nat.zero_le _
  | cons f done ih =>
    have hpos : encode f ≠ [] := by
      have hfirst := hreads.first f (hwf f List.mem_cons_self)
      intro hnil
      rw [hnil] at hfirst
      cases hfirst
    have hlen := List.length_pos_of_ne_nil hpos
    have hrest := ih fun g hg => hwf g (List.mem_cons_of_mem f hg)
    rw [stream_cons, List.length_append, List.length_cons]
    omega

/-- **Reading on.** More of the stream behind the part that is buffered: the frames that
are whole by then are taken, and the part of the next one is buffered. -/
theorem read_next (hwf : ∀ f ∈ frames, WellFormed f) (h : left ++ data ++ t = stream encode frames)
    (n : Nat) {fuel : Nat} (hfuel : n + (left ++ data).length ≤ fuel) :
    ∃ n' done rest left', frames = done ++ rest ∧ left ++ data = stream encode done ++ left' ∧
      left' ++ t = stream encode rest ∧ Partial encode rest left' ∧
      read find fuel (List.replicate n start ++ (left ++ data)) =
        (done.map encode, List.replicate n' start ++ left') := by
  obtain ⟨done, rest, left', rfl, hb, hleft, hpart⟩ := split_prefix h
  have hcount := length_le_stream hreads fun f hf => hwf f (List.mem_append_left rest hf)
  rw [hb, List.length_append] at hfuel
  have hturns : n + done.length ≤ fuel := by omega
  obtain ⟨n', hread⟩ := read_noise hreads hwf hpart hleft n hturns
  exact ⟨n', done, rest, left', rfl, hb, hleft, hpart, hb ▸ hread⟩

end Jukeboy.Base.Framing
