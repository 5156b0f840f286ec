import Jukeboy.Base.ByteFile
import Jukeboy.Base.EspErr

/-! # Trimming the log of a script

After a run the log is cut to its last 32 KiB, without the line they begin in the middle
of. The calls on the open file may fail, and reads and writes may be short. -/
namespace Jukeboy.Services.LogTrim
open Jukeboy.Base Jukeboy.Base.ByteFile

abbrev Bytes := List UInt8

def newline : UInt8 := 10

/-! ## The open file -/

structure LogFile where
  content : Bytes
  pos : Nat
deriving DecidableEq, Repr

namespace LogFile

def seek (file : LogFile) (pos : Nat) : LogFile := { file with pos }

/-- The file is advanced by what was read. -/
def read (file : LogFile) (count : Nat) : Bytes × LogFile :=
  let bytes := slice file.content file.pos count
  (bytes, file.seek (file.pos + bytes.length))

def write (file : LogFile) (bytes : Bytes) : LogFile :=
  ⟨overwrite file.content file.pos bytes, file.pos + bytes.length⟩

def ftruncate (file : LogFile) (size : Nat) : LogFile := { file with content := resize size file.content }

end LogFile

/-- What the calls do: whether the n-th `lseek` succeeds, how many bytes the `read` and
the `write` move at most, if they succeed, and whether the `ftruncate` does. -/
structure Io where
  seeks : Nat → Bool
  reads : Option Nat
  writes : Option Nat
  truncates : Bool

/-- `memchr(buffer, '\n', size)` and the byte behind it, 0 where there is none. -/
def behindNewline (buffer : Bytes) : Nat :=
  match buffer.idxOf? newline with
  | some index => index + 1
  | none => 0

/-- `keep_offset`. -/
def keepFrom (readOffset : Nat) (buffer : Bytes) : Nat :=
  if readOffset > 0 then behindNewline buffer else 0

/-- The end of `script_trim_log_fd`. -/
def seekEnd (io : Io) (file : LogFile) : EspErr × LogFile :=
  if !io.seeks 3 then (.fail, file) else (.ok, file.seek file.content.length)

/-- `script_trim_log_fd` from its second `SEEK_SET` on. -/
def rewriteFd (io : Io) (buffer : Bytes) (keepOffset : Nat) (file : LogFile) : EspErr × LogFile :=
  if !io.seeks 2 then (.fail, file) else
  let file := file.seek 0
  if keepOffset < buffer.length then
    let kept := buffer.drop keepOffset
    match io.writes with
    | none => (.fail, file)
    | some count =>
      let file := file.write (kept.take count)
      if (kept.take count).length ≠ kept.length then (.fail, file)
      else if !io.truncates then (.fail, file)
      else seekEnd io (file.ftruncate kept.length)
  else if !io.truncates then (.fail, file)
  else seekEnd io (file.ftruncate 0)

/-- `script_trim_log_fd` for any size of a log and its buffer. -/
def trimLogFdTo (maxSize : Nat) (io : Io) (logFd : Int) (file : LogFile) : EspErr × LogFile :=
  if logFd < 0 then (.invalidArg, file) else
  if !io.seeks 0 then (.fail, file) else
  let file := file.seek file.content.length
  let logSize := file.pos
  if logSize ≤ maxSize then (.ok, file) else
  let readOffset := logSize - maxSize
  if !io.seeks 1 then (.fail, file) else
  let file := file.seek readOffset
  match io.reads with
  | none => (.fail, file)
  | some count =>
    let (buffer, file) := file.read (min count maxSize)
    rewriteFd io buffer (keepFrom readOffset buffer) file

/-- `SCRIPT_SERVICE_LOG_MAX_SIZE`. -/
def logMaxSize : Nat := 32 * 1024

/-- `script_trim_log_fd`. -/
def trimLogFd : Io → Int → LogFile → EspErr × LogFile := trimLogFdTo logMaxSize

/-! ## What trimming is for -/

/-- The calls succeed, and move as many bytes as they are asked to. -/
structure Io.Complete (maxSize : Nat) (io : Io) : Prop where
  seeks : ∀ n, io.seeks n = true
  reads : ∃ count, io.reads = some count ∧ maxSize ≤ count
  writes : ∃ count, io.writes = some count ∧ maxSize ≤ count
  truncates : io.truncates = true

/-- The last `maxSize` bytes. -/
def tail (maxSize : Nat) (content : Bytes) : Bytes := content.drop (content.length - maxSize)

/-- What is left of a log. -/
structure Trimmed (maxSize : Nat) (before after : Bytes) : Prop where
  length_le : after.length ≤ maxSize
  isSuffix : after <:+ before
  unchanged : before.length ≤ maxSize → after = before
  /-- It starts where a line does, if there is a newline with text behind it in the tail. -/
  lineStart : (∃ a b, tail maxSize before = a ++ newline :: b ∧ b ≠ []) →
    after = before ∨ ∃ a, before = a ++ newline :: after
  /-- Nothing, if a line fills the tail. -/
  empty_iff : after = [] ↔
    before = [] ∨ maxSize < before.length ∧ ∃ a, newline ∉ a ∧ tail maxSize before = a ++ [newline]

/-! ## What is kept -/

/-- What is kept of the tail: all behind its first newline. -/
theorem behindNewline_cases (buffer : Bytes) :
    (newline ∉ buffer ∧ behindNewline buffer = 0) ∨
      ∃ a b, newline ∉ a ∧ buffer = a ++ newline :: b ∧ behindNewline buffer = a.length + 1 := by
  unfold behindNewline
  induction buffer with
  | nil => exact .inl ⟨List.not_mem_nil, rfl⟩
  | cons x buffer ih =>
    rw [List.idxOf?_cons]
    by_cases hx : x = newline
    · subst hx
      rw [if_pos (beq_self_eq_true _)]
      exact .inr ⟨[], buffer, List.not_mem_nil, rfl, rfl⟩
    · rw [if_neg (by simpa using hx)]
      cases hidx : buffer.idxOf? newline with
      | none =>
        rw [hidx] at ih
        obtain ⟨hmem, -⟩ | ⟨a, b, -, -, hlen⟩ := ih
        · exact .inl ⟨List.not_mem_cons_of_ne_of_not_mem (Ne.symm hx) hmem, rfl⟩
        · cases hlen
      | some index =>
        rw [hidx] at ih
        obtain ⟨-, hzero⟩ | ⟨a, b, ha, rfl, hlen⟩ := ih
        · cases hzero
        · exact .inr ⟨x :: a, b, List.not_mem_cons_of_ne_of_not_mem (Ne.symm hx) ha, rfl,
            congrArg Nat.succ hlen⟩

variable {maxSize : Nat} {content : Bytes}

theorem length_tail (h : maxSize ≤ content.length) : (tail maxSize content).length = maxSize := by
  rw [tail, List.length_drop]
  exact Nat.sub_sub_self h

theorem tail_isSuffix (maxSize : Nat) (content : Bytes) : tail maxSize content <:+ content :=
  List.drop_suffix _ _

/-- What is kept of a log that is too long. -/
def kept (maxSize : Nat) (content : Bytes) : Bytes :=
  (tail maxSize content).drop (behindNewline (tail maxSize content))

theorem kept_eq_nil_iff (hlen : maxSize < content.length) (hpos : 0 < maxSize) :
    kept maxSize content = [] ↔ ∃ a, newline ∉ a ∧ tail maxSize content = a ++ [newline] := by
  have htail := length_tail (Nat.le_of_lt hlen)
  unfold kept
  generalize tail maxSize content = buffer at htail
  obtain ⟨hmem, hzero⟩ | ⟨a, b, ha, rfl, hkeep⟩ := behindNewline_cases buffer
  · rw [hzero, List.drop_zero]
    refine iff_of_false ?_ ?_
    · rintro rfl
      exact Nat.ne_of_gt hpos htail.symm
    · rintro ⟨a, -, rfl⟩
      exact hmem (by simp)
  · rw [hkeep, List.drop_append, List.drop_of_length_le (by omega), List.nil_append,
      Nat.add_sub_cancel_left, List.drop_one, List.tail_cons]
    constructor
    · rintro rfl
      exact ⟨a, ha, rfl⟩
    · rintro ⟨c, hc, heq⟩
      by_contra hb
      -- The newline of `a ++ newline :: b` is not the last byte, so it lies in `c`.
      have hlast : b = b.dropLast ++ [newline] := by
        have := congrArg List.getLast? heq
        rw [List.getLast?_append_of_ne_nil _ (List.cons_ne_nil _ _), List.getLast?_concat,
          List.getLast?_cons_of_ne_nil hb, List.getLast?_eq_some_iff] at this
        obtain ⟨ys, rfl⟩ := this
        rw [List.dropLast_concat]
      rw [hlast, ← List.cons_append, ← List.append_assoc] at heq
      exact hc (List.append_cancel_right heq ▸ by simp)

theorem kept_trimmed (hlen : maxSize < content.length) (hpos : 0 < maxSize) :
    Trimmed maxSize content (kept maxSize content) where
  length_le := by
    rw [kept, List.length_drop, length_tail (Nat.le_of_lt hlen)]
    exact Nat.sub_le ..
  isSuffix := (List.drop_suffix ..).trans (tail_isSuffix ..)
  unchanged h := absurd hlen (Nat.not_lt.mpr h)
  lineStart := by
    rintro ⟨c, d, hline, -⟩
    obtain ⟨pre, hpre⟩ := tail_isSuffix maxSize content
    obtain ⟨hmem, -⟩ | ⟨a, b, -, hbuffer, hkeep⟩ := behindNewline_cases (tail maxSize content)
    · exact absurd (hline ▸ by simp) hmem
    · refine .inr ⟨pre ++ a, ?_⟩
      have hkept : kept maxSize content = b := by
        rw [kept, hkeep, hbuffer, List.drop_append, List.drop_of_length_le (by omega),
          List.nil_append, Nat.add_sub_cancel_left, List.drop_one, List.tail_cons]
      rw [hkept, List.append_assoc, ← hbuffer, hpre]
  empty_iff := by
    rw [kept_eq_nil_iff hlen hpos]
    constructor
    · exact fun h => .inr ⟨hlen, h⟩
    · rintro (rfl | ⟨-, h⟩)
      · cases hlen
      · exact h

/-- A log that fits is left alone. -/
theorem trimmed_of_le (h : content.length ≤ maxSize) : Trimmed maxSize content content where
  length_le := h
  isSuffix := List.suffix_rfl
  unchanged _ := rfl
  lineStart _ := .inl rfl
  empty_iff := by
    constructor
    · exact .inl
    · rintro (rfl | ⟨hlt, -⟩)
      · rfl
      · exact absurd hlt (Nat.not_lt.mpr h)

/-! ## What the calls do -/

/-- Complete calls keep a log that fits, and leave of another one what is to be kept. -/
theorem trimLogFdTo_complete {io : Io} {logFd : Int} (file : LogFile) (hio : io.Complete maxSize)
    (hfd : 0 ≤ logFd) :
    ∃ pos, trimLogFdTo maxSize io logFd file =
      (.ok, ⟨if file.content.length ≤ maxSize then file.content else kept maxSize file.content, pos⟩) := by
  obtain ⟨rcount, hreads, hrcount⟩ := hio.reads
  obtain ⟨wcount, hwrites, hwcount⟩ := hio.writes
  unfold trimLogFdTo
  rw [if_neg (Int.not_lt.mpr hfd)]
  simp only [hio.seeks, hreads, LogFile.seek, Bool.not_true, Bool.false_eq_true, if_false]
  by_cases hfits : file.content.length ≤ maxSize
  · rw [if_pos hfits, if_pos hfits]
    exact ⟨_, rfl⟩
  · have hlen := Nat.not_le.mp hfits
    have htail := length_tail (Nat.le_of_lt hlen)
    have hslice : slice file.content (file.content.length - maxSize) maxSize =
        tail maxSize file.content := List.take_of_length_le (Nat.le_of_eq htail)
    rw [if_neg hfits, if_neg hfits, LogFile.read, Nat.min_eq_right hrcount, keepFrom,
      if_pos (Nat.sub_pos_of_lt hlen)]
    dsimp only
    rw [hslice, kept]
    generalize tail maxSize file.content = buffer at htail
    generalize behindNewline buffer = keepOffset
    have hkept : (buffer.drop keepOffset).length ≤ wcount := by
      rw [List.length_drop, htail]
      omega
    unfold rewriteFd seekEnd
    simp only [hio.seeks, hio.truncates, hwrites, LogFile.seek, LogFile.write, LogFile.ftruncate,
      Bool.not_true, Bool.false_eq_true, if_false, List.take_of_length_le hkept]
    by_cases hmore : keepOffset < buffer.length
    · rw [if_pos hmore, if_neg (not_not.mpr rfl)]
      refine ⟨_, congrArg (fun content => (EspErr.ok, LogFile.mk content _)) ?_⟩
      rw [overwrite, resize_zero, List.nil_append]
      exact resize_append _ _
    · rw [if_neg hmore, List.drop_of_length_le (Nat.not_lt.mp hmore)]
      exact ⟨_, congrArg (fun content => (EspErr.ok, LogFile.mk content _)) (resize_zero _)⟩

theorem logMaxSize_pos : 0 < logMaxSize := by decide

/-- **Log trimming** by calls that all succeed completely. -/
theorem trimLogFd_trimmed (io : Io) (logFd : Int) (file after : LogFile)
    (hio : io.Complete logMaxSize) (h : trimLogFd io logFd file = (.ok, after)) :
    Trimmed logMaxSize file.content after.content := by
  have hfd : 0 ≤ logFd := by
    by_contra hneg
    rw [trimLogFd, trimLogFdTo, if_pos (Int.not_le.mp hneg)] at h
    cases h
  obtain ⟨pos, htrim⟩ := trimLogFdTo_complete file hio hfd
  cases h.symm.trans htrim
  dsimp only
  split_ifs with hfits
  · exact trimmed_of_le hfits
  · exact kept_trimmed (Nat.not_le.mp hfits) logMaxSize_pos

def completeIo : Io := ⟨fun _ => true, some logMaxSize, some logMaxSize, true⟩

theorem completeIo_complete : completeIo.Complete logMaxSize :=
  ⟨fun _ => rfl, ⟨_, rfl, Nat.le_refl _⟩, ⟨_, rfl, Nat.le_refl _⟩, rfl⟩

/-- A line that fills a log, and what comes behind it. -/
def longLine (maxSize : Nat) (rest : Bytes) : Bytes := List.replicate maxSize 97 ++ newline :: rest

theorem trimLogFd_trimmed_longLine : ∃ after,
    trimLogFd completeIo 3 ⟨longLine logMaxSize [98, 99], 0⟩ = (.ok, after) ∧
      Trimmed logMaxSize (longLine logMaxSize [98, 99]) after.content := by
  obtain ⟨pos, h⟩ := trimLogFdTo_complete ⟨longLine logMaxSize [98, 99], 0⟩
    completeIo_complete (by decide : (0 : Int) ≤ 3)
  exact ⟨_, h, trimLogFd_trimmed completeIo 3 _ _ completeIo_complete h⟩

theorem kept_longLine (hpos : 0 < maxSize) : kept maxSize (longLine maxSize []) = [] := by
  refine (kept_eq_nil_iff ?_ hpos).mpr ⟨List.replicate (maxSize - 1) 97, ?_, ?_⟩
  · simp [longLine]
  · intro hmem
    cases List.eq_of_mem_replicate hmem
  · have hdrop : (longLine maxSize []).length - maxSize = 1 := by simp [longLine]
    have hle : 1 ≤ (List.replicate maxSize (97 : UInt8)).length := by
      rw [List.length_replicate]
      exact hpos
    rw [tail, hdrop, longLine, List.drop_append_of_le_length hle, List.drop_replicate]

/-- A log of one line that is longer than 32 KiB: nothing is left of it. -/
theorem longLine_emptied : ∃ after,
    trimLogFd completeIo 3 ⟨longLine logMaxSize [], 0⟩ = (.ok, after) ∧ after.content = [] ∧
      longLine logMaxSize [] ≠ [] := by
  obtain ⟨pos, h⟩ := trimLogFdTo_complete ⟨longLine logMaxSize [], 0⟩
    completeIo_complete (by decide : (0 : Int) ≤ 3)
  have hlong : ¬ (longLine logMaxSize []).length ≤ logMaxSize := by simp [longLine]
  refine ⟨_, h, ?_, by simp [longLine]⟩
  dsimp only
  rw [if_neg hlong, kept_longLine logMaxSize_pos]

end Jukeboy.Services.LogTrim
