import Jukeboy.Base.ByteFile
import Jukeboy.PlayHistory.Persistence

/-! # Flushing and loading the play-history file

What a flush writes, block by block, and what a load makes of the file, with
every file operation free to fail. -/
namespace Jukeboy.PlayHistory.Flush

open Jukeboy.Base Jukeboy.Base.ByteFile Jukeboy.Base.SlotTable Jukeboy.PlayHistory.Cache
  Jukeboy.PlayHistory.Persistence

abbrev serialIoBytes : Nat := 4096

abbrev commitMaxPasses : Nat := 3

/-! ## Space -/

/-- The size of the file as it is, 0 when it cannot be told. -/
def existingSize (f : Faults) (d : Disk) : Nat × Disk :=
  let (opened, d) := look f d
  if !(opened && d.file.isSome) then (0, d) else
  let (sought, d) := look f d
  if !sought then (0, d) else
  let (told, d) := look f d
  (if told then d.content.length else 0, d)

/-- Whether the blob fits, as far as `esp_littlefs_info` tells (`none`: it failed). -/
def checkSpace (f : Faults) (info : Option (UInt32 × UInt32)) (desired : Nat) (d : Disk) :
    Bool × Disk :=
  match info with
  | none => (true, d)
  | some (totalBytes, usedBytes) =>
    let (existing, d) := existingSize f d
    (!(totalBytes.toNat < desired ||
      (totalBytes - usedBytes + UInt32.ofNat existing).toNat < desired), d)

/-! ## Writing in place -/

/-- `fopen` with "rb+", then with "wb+". -/
def openForCommit (f : Faults) (d : Disk) : Bool × Disk :=
  let (opened, d) := look f d
  if opened && d.file.isSome then (true, d) else change f (some []) d

/-- One block of a pass: whether the file held it already, `none` on an error. -/
def commitBlock (f : Faults) (blob : List UInt8) (offset : Nat) (d : Disk) :
    Option Bool × Disk :=
  let expected := slice blob offset serialIoBytes
  let (sought, d) := change f d.file d
  if !sought then (none, d) else
  let (got, d) := look f d
  if got && slice d.content offset expected.length == expected then (some true, d) else
  let (sought, d) := change f d.file d
  if !sought then (none, d) else
  let (written, d) := change f (some (overwrite d.content offset expected))
    { d with writes := (offset, expected) :: d.writes }
  (if written then some false else none, d)

/-- One pass over the blocks: whether the file held them all. -/
def commitPass (f : Faults) (blob : List UInt8) : List Nat → Disk → Option Bool × Disk
  | [], d => (some true, d)
  | offset :: rest, d =>
    match commitBlock f blob offset d with
    | (none, d) => (none, d)
    | (some same, d) =>
      match commitPass f blob rest d with
      | (none, d) => (none, d)
      | (some identical, d) => (some (same && identical), d)

def blockOffsets (size : Nat) : List Nat :=
  (List.range ((size + (serialIoBytes - 1)) / serialIoBytes)).map fun k => k * serialIoBytes

/-- The passes: whether one found the whole blob in the file and the file was
closed. -/
def commitPasses (f : Faults) (blob : List UInt8) : Nat → Disk → Bool × Disk
  | 0, d => (false, d)
  | passes + 1, d =>
    match commitPass f blob (blockOffsets blob.length) d with
    | (none, d) => (false, d)
    | (some identical, d) =>
      let (flushed, d) := change f d.file d
      if !flushed then (false, d) else
      if identical then change f d.file d else commitPasses f blob passes d

/-- `play_history_flush_locked`. -/
def flushLocked (f : Faults) (info : Option (UInt32 × UInt32)) (s : Store) (d : Disk) :
    Store × Disk × EspErr :=
  if s.dirty = false then (s, d, .ok) else
  match buildSerializedBlob s with
  | .error err => (s, d, err)
  | .ok blob =>
    let (fits, d) := checkSpace f info blob.length d
    if !fits then (s, d, .noMem) else
    let (opened, d) := openForCommit f d
    if !opened then (s, d, .fail) else
    let (resized, d) := change f (some (resize blob.length d.content)) d
    if !resized then (s, d, .fail) else
    match commitPasses f blob commitMaxPasses d with
    | (true, d) => ({ s with dirty := false }, d, .ok)
    | (false, d) => (s, d, .fail)

/-! ## Loading -/

/-- `play_history_load_locked`. -/
def loadLocked (f : Faults) (s : Store) (d : Disk) : Store × Disk × EspErr :=
  let s := { resetCache s with dirty := false }
  let (opened, d) := look f d
  match d.file with
  | none => (s, d, if opened then .ok else .fail)
  | some content =>
    if !opened then (s, d, .fail) else
    let (sought, d) := look f d
    if !sought then (s, d, .fail) else
    let (told, d) := look f d
    if !told then (s, d, .fail) else
    let (rewound, d) := look f d
    if !rewound then (s, d, .fail) else
    if content.length = 0 then (s, d, .ok) else
    if maxSerializedBytes < content.length then (s, d, .invalidSize) else
    let (read, d) := look f d
    if !read then (s, d, .fail) else
    let (s, err) := loadFromSerializedBytes content s
    (s, d, err)

/-! ## What a flush that succeeds leaves -/

/-- A block that succeeds keeps the file's length, and the file itself when it
held the block. -/
theorem commitBlock_spec {f : Faults} {blob content : List UInt8} {offset : Nat} {d d' : Disk}
    {same : Bool} (hfile : d.file = some content) (hlen : content.length = blob.length)
    (hoffset : offset ≤ blob.length)
    (h : commitBlock f blob offset d = (some same, d')) :
    (∃ content', d'.file = some content' ∧ content'.length = blob.length) ∧
      (same = true → d'.file = some content ∧
        slice content offset serialIoBytes = slice blob offset serialIoBytes) := by
  have hexpected : (slice blob offset serialIoBytes).length =
      min serialIoBytes (blob.length - offset) := by
    rw [slice, List.length_take, List.length_drop]
  unfold commitBlock at h
  dsimp only at h
  generalize hc1 : change f d.file d = r1 at h
  obtain ⟨sought, d1⟩ := r1
  cases sought with
  | false => cases h
  | true =>
    obtain ⟨hfile1, -⟩ := change_true hc1
    rw [hfile] at hfile1
    have hcontent : (look f d1).2.content = content := by
      rw [Disk.content, look_file, hfile1]
      rfl
    simp only [Bool.not_true, Bool.false_eq_true, if_false, hcontent] at h
    split at h
    · next hsame =>
      obtain ⟨-, hslice⟩ := Bool.and_eq_true_iff.mp hsame
      cases h
      refine ⟨⟨content, hfile1, hlen⟩, fun _ => ⟨hfile1, ?_⟩⟩
      have hslice := eq_of_beq hslice
      rw [hexpected, slice] at hslice
      rw [← hslice, slice, ← hlen, List.take_eq_take_iff]
      simp only [List.length_drop]
      omega
    · generalize hc2 : change f (look f d1).2.file (look f d1).2 = r2 at h
      obtain ⟨sought, d2⟩ := r2
      cases sought with
      | false => cases h
      | true =>
        obtain ⟨hfile2, -⟩ := change_true hc2
        rw [look_file, hfile1] at hfile2
        simp only [Bool.not_true, Bool.false_eq_true, if_false] at h
        generalize hc3 : change f _ _ = r3 at h
        obtain ⟨written, d3⟩ := r3
        cases written with
        | false => cases h
        | true =>
          obtain ⟨hfile3, -⟩ := change_true hc3
          cases h
          have hcontent2 : d2.content = content := by
            rw [Disk.content, hfile2]
            rfl
          refine ⟨⟨_, hfile3, ?_⟩, fun h => by cases h⟩
          rw [hcontent2, length_overwrite, hlen]
          rw [hexpected, hlen]
          omega

theorem commitPass_spec {f : Faults} {blob content : List UInt8} {offsets : List Nat}
    {d d' : Disk} {identical : Bool} (hfile : d.file = some content)
    (hlen : content.length = blob.length) (hoffsets : ∀ o ∈ offsets, o ≤ blob.length)
    (h : commitPass f blob offsets d = (some identical, d')) :
    (∃ content', d'.file = some content' ∧ content'.length = blob.length) ∧
      (identical = true → d'.file = some content ∧
        ∀ o ∈ offsets, slice content o serialIoBytes = slice blob o serialIoBytes) := by
  induction offsets generalizing d content identical with
  | nil =>
    cases h
    exact ⟨⟨content, hfile, hlen⟩, fun _ => ⟨hfile, fun _ h => by cases h⟩⟩
  | cons offset rest ih =>
    have hrest : ∀ o ∈ rest, o ≤ blob.length := fun o ho => hoffsets o (List.mem_cons_of_mem _ ho)
    rw [commitPass] at h
    split at h
    · cases h
    · next same d1 hblock =>
      obtain ⟨⟨content1, hfile1, hlen1⟩, hsame⟩ :=
        commitBlock_spec hfile hlen (hoffsets offset (List.mem_cons_self ..)) hblock
      split at h
      · cases h
      · next identical1 d2 hpass =>
        cases h
        obtain ⟨hkept, hident⟩ := ih hfile1 hlen1 hrest hpass
        refine ⟨hkept, fun hboth => ?_⟩
        obtain ⟨hs, hi⟩ := Bool.and_eq_true_iff.mp hboth
        obtain ⟨hfile2, hslice⟩ := hsame hs
        obtain rfl : content1 = content := by
          rw [hfile1] at hfile2
          exact Option.some.inj hfile2
        obtain ⟨hfile3, hslices⟩ := hident hi
        refine ⟨hfile3, fun o ho => ?_⟩
        rcases List.mem_cons.mp ho with rfl | ho
        · exact hslice
        · exact hslices o ho

theorem blockOffsets_le {size offset : Nat} (h : offset ∈ blockOffsets size) : offset ≤ size := by
  obtain ⟨k, hk, rfl⟩ := List.mem_map.mp h
  have := List.mem_range.mp hk
  unfold serialIoBytes at *
  omega

/-- **A commit that succeeds** leaves exactly the blob in the file. -/
theorem commitPasses_spec {f : Faults} {blob content : List UInt8} {passes : Nat} {d d' : Disk}
    (hfile : d.file = some content) (hlen : content.length = blob.length)
    (h : commitPasses f blob passes d = (true, d')) : d'.file = some blob := by
  induction passes generalizing d content with
  | zero => cases h
  | succ passes ih =>
    rw [commitPasses] at h
    split at h
    · cases h
    · next identical d1 hpass =>
      obtain ⟨⟨content1, hfile1, hlen1⟩, hident⟩ :=
        commitPass_spec hfile hlen (fun o ho => blockOffsets_le ho) hpass
      generalize hc : change f d1.file d1 = r at h
      obtain ⟨flushed, d2⟩ := r
      cases flushed with
      | false => cases h
      | true =>
        obtain ⟨hfile2, -⟩ := change_true hc
        simp only [Bool.not_true, Bool.false_eq_true, if_false] at h
        split at h
        · next hidentical =>
          obtain ⟨hkept, hslices⟩ := hident hidentical
          obtain ⟨hfile3, -⟩ := change_true h
          rw [hfile3, hfile2, hkept]
          refine congrArg some (@eq_of_slices _ _ serialIoBytes
            ((blob.length + (serialIoBytes - 1)) / serialIoBytes) hlen (by decide) ?_ ?_)
          · unfold serialIoBytes
            omega
          · intro k hk
            exact hslices _ (List.mem_map.mpr ⟨k, List.mem_range.mpr hk, rfl⟩)
        · exact ih (hfile2.trans hfile1) hlen1 h

theorem buildSerializedBlob_ne_error_ok (s : Store) : buildSerializedBlob s ≠ .error .ok :=
  failIf_bind_ne_error_ok (fun _ h => by cases h) (failIf_bind_ne_error_ok (fun _ h => by cases h)
    (fun h => by cases h))

/-- What a flush of a dirty cache does when it reports success. -/
theorem flushLocked_ok {f : Faults} {info : Option (UInt32 × UInt32)} {s t : Store}
    {d d' : Disk} (hd : s.dirty = true) (h : flushLocked f info s d = (t, d', .ok)) :
    ∃ blob, buildSerializedBlob s = .ok blob ∧ d'.file = some blob ∧
      t = { s with dirty := false } := by
  rw [flushLocked, if_neg (by rw [hd]; intro h; cases h)] at h
  split at h
  · next err hbuild =>
    obtain ⟨-, -, rfl⟩ : s = t ∧ d = d' ∧ err = .ok := by simpa using h
    exact absurd hbuild (buildSerializedBlob_ne_error_ok s)
  · next blob hbuild =>
    generalize checkSpace f info blob.length d = r at h
    obtain ⟨fits, d1⟩ := r
    cases fits with
    | false => cases h
    | true =>
      simp only [Bool.not_true, Bool.false_eq_true, if_false] at h
      generalize openForCommit f d1 = r at h
      obtain ⟨opened, d2⟩ := r
      cases opened with
      | false => cases h
      | true =>
        simp only [Bool.not_true, Bool.false_eq_true, if_false] at h
        generalize hc : change f (some (resize blob.length d2.content)) d2 = r at h
        obtain ⟨resized, d3⟩ := r
        cases resized with
        | false => cases h
        | true =>
          simp only [Bool.not_true, Bool.false_eq_true, if_false] at h
          split at h
          · next d4 hpasses =>
            cases h
            exact ⟨blob, hbuild, commitPasses_spec (change_true hc).1 (length_resize ..) hpasses, rfl⟩
          · cases h

/-- A flush that fails leaves the cache dirty. -/
theorem flushLocked_error {f : Faults} {info : Option (UInt32 × UInt32)} {s t : Store}
    {d d' : Disk} {err : EspErr} (h : flushLocked f info s d = (t, d', err)) (herr : err ≠ .ok) :
    t = s ∧ s.dirty = true := by
  rw [flushLocked] at h
  split at h
  · cases h
    exact absurd rfl herr
  · next hd =>
    refine ⟨?_, Bool.not_eq_false _ ▸ hd⟩
    split at h
    · cases h; rfl
    · generalize checkSpace f info _ d = r at h
      obtain ⟨fits, d1⟩ := r
      dsimp only at h
      split at h
      · cases h; rfl
      · generalize openForCommit f d1 = r at h
        obtain ⟨opened, d2⟩ := r
        dsimp only at h
        split at h
        · cases h; rfl
        · generalize change f _ d2 = r at h
          obtain ⟨resized, d3⟩ := r
          dsimp only at h
          split at h
          · cases h; rfl
          · split at h
            · cases h
              exact absurd rfl herr
            · cases h; rfl

/-! ## What a load makes of a file -/

/-- A load whose operations succeed hands the file to the decoder. -/
theorem loadLocked_of_succeeds {f : Faults} (hf : ∀ n, f.succeeds n = true) {content : List UInt8}
    {d : Disk} (hfile : d.file = some content) (h0 : content.length ≠ 0)
    (hmax : content.length ≤ maxSerializedBytes) (s : Store) :
    ∃ d', loadLocked f s d =
      ((loadFromSerializedBytes content { resetCache s with dirty := false }).1, d',
        (loadFromSerializedBytes content { resetCache s with dirty := false }).2) := by
  simp only [loadLocked, look, hf, hfile, Bool.not_true, Bool.false_eq_true, if_false, if_neg h0,
    if_neg (Nat.not_lt.mpr hmax)]
  exact ⟨_, rfl⟩

end Jukeboy.PlayHistory.Flush
