import Jukeboy.Base.ByteLayout
import Jukeboy.PlayHistory.FileRoundTrip

/-! # A flush writes what differs

When every file operation succeeds, a flush writes the blocks of the blob that the file, once
it has the size of the blob, does not hold, and each of them once. -/
namespace Jukeboy.PlayHistory.MinimalWrites

open Jukeboy.Base Jukeboy.Base.ByteFile Jukeboy.Base.ByteLayout Jukeboy.Base.Records
  Jukeboy.Base.SlotTable Jukeboy.PlayHistory.Cache Jukeboy.PlayHistory.Persistence
  Jukeboy.PlayHistory.Flush Jukeboy.PlayHistory.FileRoundTrip

/-- The file holds this block of the blob. -/
def Held (content blob : List UInt8) (offset : Nat) : Prop :=
  slice content offset serialIoBytes = slice blob offset serialIoBytes

instance (content blob : List UInt8) (offset : Nat) : Decidable (Held content blob offset) :=
  inferInstanceAs (Decidable (_ = _))

/-- The blocks that it does not hold, with their offsets. -/
def changedBlocks (content blob : List UInt8) (offsets : List Nat) : List (Nat × List UInt8) :=
  (offsets.filter fun offset => !decide (Held content blob offset)).map fun offset =>
    (offset, slice blob offset serialIoBytes)

/-- The file when the passes start: opened, or made, and resized. -/
def beforePasses (f : Faults) (info : Option (UInt32 × UInt32)) (blob : List UInt8) (d : Disk) :
    Disk :=
  let opened := (openForCommit f (checkSpace f info blob.length d).2).2
  (change f (some (resize blob.length opened.content)) opened).2

/-! ## Operations that succeed -/

variable {f : Faults} {d : Disk} {content blob : List UInt8} {offset : Nat} {offsets : List Nat}

theorem change_of_succeeds (hf : ∀ n, f.succeeds n = true) (file : Option (List UInt8)) (d : Disk) :
    change f file d = (true, { d with file := file, ops := d.ops + 1 }) := if_pos (hf _)

theorem look_of_succeeds (hf : ∀ n, f.succeeds n = true) (d : Disk) :
    look f d = (true, { d with ops := d.ops + 1 }) := by
  rw [look, hf]

/-- The bytes that are compared with a block are those of the block. -/
theorem slice_expected (hlen : content.length = blob.length) :
    slice content offset (slice blob offset serialIoBytes).length =
      slice content offset serialIoBytes := by
  simp only [slice, List.length_take, List.length_drop, List.take_eq_take_iff]
  omega

theorem content_of_file (hfile : d.file = some content) : d.content = content := by
  rw [Disk.content, hfile]
  rfl

/-- The block is compared, and written when the file does not hold it. -/
theorem commitBlock_of_succeeds (hf : ∀ n, f.succeeds n = true) (hfile : d.file = some content)
    (hlen : content.length = blob.length) (offset : Nat) : commitBlock f blob offset d =
      if Held content blob offset then (some true, { d with ops := d.ops + 2 })
      else (some false, ⟨some (overwrite content offset (slice blob offset serialIoBytes)), d.ops + 4,
        (offset, slice blob offset serialIoBytes) :: d.writes⟩) := by
  have hcontent (ops : Nat) (writes : List (Nat × List UInt8)) :
      Disk.content ⟨d.file, ops, writes⟩ = content := content_of_file hfile
  simp only [commitBlock, change_of_succeeds hf, look_of_succeeds hf, hcontent,
    slice_expected hlen, Bool.not_true, Bool.false_eq_true, if_false, Bool.true_and, if_true,
    beq_iff_eq]
  rfl

/-- One pass writes the blocks that the file does not hold: writing one of them does not
change the others. -/
theorem commitPass_of_succeeds (hf : ∀ n, f.succeeds n = true)
    (hapart : offsets.Pairwise fun o p => o + serialIoBytes ≤ p)
    (hle : ∀ o ∈ offsets, o ≤ blob.length) (hfile : d.file = some content)
    (hlen : content.length = blob.length) :
    ∃ content' ops, commitPass f blob offsets d =
        (some (changedBlocks content blob offsets).isEmpty,
          ⟨some content', ops, (changedBlocks content blob offsets).reverse ++ d.writes⟩) ∧
      content'.length = blob.length ∧ (∀ o ∈ offsets, Held content' blob o) ∧
      ∀ p, (∀ o ∈ offsets, p + serialIoBytes ≤ o) →
        slice content' p serialIoBytes = slice content p serialIoBytes := by
  induction offsets generalizing d content with
  | nil => exact ⟨content, d.ops, by rw [← hfile]; rfl, hlen, fun _ h => (by cases h),
      fun _ _ => rfl⟩
  | cons offset rest ih =>
    obtain ⟨hfirst, hrest⟩ := List.pairwise_cons.mp hapart
    obtain ⟨hoffset, hleRest⟩ := List.forall_mem_cons.mp hle
    rw [commitPass, commitBlock_of_succeeds hf hfile hlen offset]
    by_cases hheld : Held content blob offset
    · rw [if_pos hheld]
      have hblocks : changedBlocks content blob (offset :: rest) = changedBlocks content blob rest := by
        rw [changedBlocks, List.filter_cons, if_neg (by simp [hheld])]
        rfl
      obtain ⟨content', ops, hpass, hlen', hall, hother⟩ :=
        ih (d := { d with ops := d.ops + 2 }) hrest hleRest hfile hlen
      refine ⟨content', ops, ?_, hlen', ?_, ?_⟩
      · simp only [hpass, hblocks, Bool.true_and]
      · exact List.forall_mem_cons.mpr ⟨(hother offset hfirst).trans hheld, hall⟩
      · exact fun p hp => hother p (List.forall_mem_cons.mp hp).2
    · rw [if_neg hheld]
      have hsame (p : Nat) (hp : offset + serialIoBytes ≤ p ∨ p + serialIoBytes ≤ offset) :
          slice (overwrite content offset (slice blob offset serialIoBytes)) p serialIoBytes =
            slice content p serialIoBytes := slice_overwrite_of_apart hlen hoffset hp
      have hblocks : changedBlocks content blob (offset :: rest) =
          (offset, slice blob offset serialIoBytes) ::
            changedBlocks (overwrite content offset (slice blob offset serialIoBytes)) blob rest := by
        have hkept : ∀ o ∈ rest, (!decide (Held content blob o)) = !decide
            (Held (overwrite content offset (slice blob offset serialIoBytes)) blob o) := by
          intro o ho
          have hiff : Held content blob o ↔
              Held (overwrite content offset (slice blob offset serialIoBytes)) blob o := by
            rw [Held, Held, hsame o (.inl (hfirst o ho))]
          rw [decide_eq_decide.mpr hiff]
        rw [changedBlocks, List.filter_cons, if_pos (by simp [hheld]), List.map_cons,
          List.filter_congr hkept]
        rfl
      have hlong : (overwrite content offset (slice blob offset serialIoBytes)).length =
          blob.length := by
        rw [length_overwrite, hlen]
        rw [slice, List.length_take, List.length_drop, hlen]
        omega
      obtain ⟨content', ops, hpass, hlen', hall, hother⟩ := ih (d :=
        ⟨some (overwrite content offset (slice blob offset serialIoBytes)), d.ops + 4,
          (offset, slice blob offset serialIoBytes) :: d.writes⟩) hrest hleRest rfl hlong
      refine ⟨content', ops, ?_, hlen', ?_, ?_⟩
      · simp only [hpass, hblocks, Bool.false_and, List.isEmpty_cons, List.reverse_cons,
          List.append_assoc, List.singleton_append]
      · refine List.forall_mem_cons.mpr ⟨(hother offset hfirst).trans ?_, hall⟩
        exact slice_overwrite_slice hlen hoffset
      · intro p hp
        obtain ⟨hfar, hp⟩ := List.forall_mem_cons.mp hp
        exact (hother p hp).trans (hsame p (.inr hfar))

/-! ## The passes -/

theorem blockOffsets_pairwise (size : Nat) :
    (blockOffsets size).Pairwise fun o p => o + serialIoBytes ≤ p := by
  rw [blockOffsets, List.pairwise_map]
  refine List.pairwise_lt_range.imp fun {j k} hjk => ?_
  have := Nat.mul_le_mul_right serialIoBytes (Nat.succ_le_of_lt hjk)
  rw [Nat.succ_mul] at this
  exact this

/-- A file of the right size that holds every block is the blob. -/
theorem eq_of_held (hlen : content.length = blob.length)
    (h : ∀ o ∈ blockOffsets blob.length, Held content blob o) : content = blob := by
  refine @eq_of_slices content blob serialIoBytes
    ((blob.length + (serialIoBytes - 1)) / serialIoBytes) hlen (by decide) ?_ ?_
  · unfold serialIoBytes
    omega
  · intro k hk
    exact h _ (List.mem_map.mpr ⟨k, List.mem_range.mpr hk, rfl⟩)

theorem changedBlocks_self (blob : List UInt8) (offsets : List Nat) :
    changedBlocks blob blob offsets = [] := by
  have hnone : ∀ o ∈ offsets, ¬ (!decide (Held blob blob o)) = true := by
    intro o _
    simp [Held]
  rw [changedBlocks, List.filter_eq_nil_iff.mpr hnone, List.map_nil]

/-- One pass makes the file the blob. -/
theorem commitPass_blob (hf : ∀ n, f.succeeds n = true) (hfile : d.file = some content)
    (hlen : content.length = blob.length) :
    ∃ ops, commitPass f blob (blockOffsets blob.length) d =
      (some (changedBlocks content blob (blockOffsets blob.length)).isEmpty, ⟨some blob, ops,
        (changedBlocks content blob (blockOffsets blob.length)).reverse ++ d.writes⟩) := by
  obtain ⟨content', ops, hpass, hlen', hall, -⟩ := commitPass_of_succeeds hf
    (blockOffsets_pairwise blob.length) (fun o ho => blockOffsets_le ho) hfile hlen
  rw [eq_of_held hlen' hall] at hpass
  exact ⟨ops, hpass⟩

/-- **Two passes** are enough: the first writes what differs, the second finds the blob. -/
theorem commitPasses_two (hf : ∀ n, f.succeeds n = true) (hfile : d.file = some content)
    (hlen : content.length = blob.length) : ∃ ops, ∀ passes,
      commitPasses f blob (passes + 2) d = (true, ⟨some blob, ops,
        (changedBlocks content blob (blockOffsets blob.length)).reverse ++ d.writes⟩) := by
  obtain ⟨ops, hpass⟩ := commitPass_blob hf hfile hlen
  cases hchanged : (changedBlocks content blob (blockOffsets blob.length)).isEmpty with
  | true =>
    refine ⟨ops + 2, fun passes => ?_⟩
    simp only [commitPasses, hpass, hchanged, change_of_succeeds hf, Bool.not_true,
      Bool.false_eq_true, if_false, if_true]
  | false =>
    obtain ⟨last, hagain⟩ := commitPass_blob hf (d := ⟨some blob, ops + 1,
      (changedBlocks content blob (blockOffsets blob.length)).reverse ++ d.writes⟩) rfl rfl
    rw [changedBlocks_self] at hagain
    refine ⟨last + 2, fun passes => ?_⟩
    simp only [commitPasses, hpass, hchanged, hagain, change_of_succeeds hf, Bool.not_true,
      Bool.false_eq_true, if_false, List.isEmpty_nil, if_true, List.reverse_nil, List.nil_append]

/-! ## The flush -/

theorem checkSpace_keeps (f : Faults) (info : Option (UInt32 × UInt32)) (desired : Nat)
    (d : Disk) : (checkSpace f info desired d).2.file = d.file ∧
      (checkSpace f info desired d).2.writes = d.writes := by
  cases info with
  | none => exact ⟨rfl, rfl⟩
  | some sizes =>
    simp only [checkSpace, existingSize]
    split
    · exact ⟨rfl, rfl⟩
    · split
      · exact ⟨rfl, rfl⟩
      · exact ⟨rfl, rfl⟩

theorem openForCommit_of_succeeds (hf : ∀ n, f.succeeds n = true) (d : Disk) :
    (openForCommit f d).1 = true ∧ (openForCommit f d).2.content = d.content ∧
      (openForCommit f d).2.writes = d.writes := by
  simp only [openForCommit, look_of_succeeds hf, Bool.true_and, change_of_succeeds hf]
  cases hfile : d.file with
  | some content => exact ⟨rfl, by rw [Disk.content, Disk.content, hfile]; rfl, rfl⟩
  | none => exact ⟨rfl, by rw [Disk.content, Disk.content, hfile]; rfl, rfl⟩

/-- What the passes start from. -/
theorem beforePasses_of_succeeds (hf : ∀ n, f.succeeds n = true)
    (info : Option (UInt32 × UInt32)) (blob : List UInt8) (d : Disk) :
    (beforePasses f info blob d).file = some (resize blob.length d.content) ∧
      (beforePasses f info blob d).writes = d.writes := by
  obtain ⟨hfile, hwrites⟩ := checkSpace_keeps f info blob.length d
  obtain ⟨-, hcontent, hopened⟩ :=
    openForCommit_of_succeeds hf (checkSpace f info blob.length d).2
  simp only [beforePasses, change_of_succeeds hf]
  refine ⟨?_, hopened.trans hwrites⟩
  rw [hcontent, Disk.content, Disk.content, hfile]

/-- The flush ends as its passes do. -/
theorem flushLocked_of_succeeds (hf : ∀ n, f.succeeds n = true)
    {info : Option (UInt32 × UInt32)} {s : Store} {d' : Disk} (hd : s.dirty = true)
    (hblob : buildSerializedBlob s = .ok blob)
    (hfits : (checkSpace f info blob.length d).1 = true)
    (hpasses : commitPasses f blob commitMaxPasses (beforePasses f info blob d) = (true, d')) :
    flushLocked f info s d = ({ s with dirty := false }, d', .ok) := by
  have hopened := (openForCommit_of_succeeds hf (checkSpace f info blob.length d).2).1
  simp only [beforePasses, change_of_succeeds hf] at hpasses
  rw [flushLocked, if_neg (by rw [hd]; intro h; cases h), hblob]
  simp only [hfits, hopened, change_of_succeeds hf, hpasses, Bool.not_true, Bool.false_eq_true,
    if_false]

theorem changedBlocks_nodup (content blob : List UInt8) (size : Nat) :
    ((changedBlocks content blob (blockOffsets size)).map Prod.fst).Nodup := by
  rw [changedBlocks, List.map_map]
  have hid : (Prod.fst ∘ fun offset => (offset, slice blob offset serialIoBytes)) = id := rfl
  rw [hid, List.map_id]
  refine ((blockOffsets_pairwise size).imp fun {o p} hop => ?_).filter _
  have hpos : 0 < serialIoBytes := by decide
  omega

/-- **A flush writes what differs.** Two passes are enough for it, and it writes the blocks of
the blob that the resized file does not hold, each of them once. -/
theorem flushLocked_minimal (hf : ∀ n, f.succeeds n = true) {info : Option (UInt32 × UInt32)}
    {s : Store} (hd : s.dirty = true) (hblob : buildSerializedBlob s = .ok blob)
    (hfits : (checkSpace f info blob.length d).1 = true) :
    ∃ d', flushLocked f info s d = ({ s with dirty := false }, d', .ok) ∧
      commitPasses f blob 2 (beforePasses f info blob d) = (true, d') ∧ d'.file = some blob ∧
      d'.writes = (changedBlocks (resize blob.length d.content) blob
        (blockOffsets blob.length)).reverse ++ d.writes ∧
      ((changedBlocks (resize blob.length d.content) blob
        (blockOffsets blob.length)).map Prod.fst).Nodup ∧
      (d.file = some blob → d'.writes = d.writes) := by
  obtain ⟨hfile, hwrites⟩ := beforePasses_of_succeeds hf info blob d
  obtain ⟨ops, hpasses⟩ := commitPasses_two hf hfile (length_resize ..)
  rw [hwrites] at hpasses
  refine ⟨_, ?_, hpasses 0, rfl, rfl, changedBlocks_nodup .., ?_⟩
  · exact flushLocked_of_succeeds hf hd hblob hfits (hpasses 1)
  · intro hsame
    have hresize : resize blob.length blob = blob := by
      have h := resize_append blob []
      rwa [List.append_nil] at h
    rw [content_of_file hsame, hresize, changedBlocks_self]
    rfl

/-! ## A flush over an older file -/

/-- A history of twelve tracks that is still to be saved. -/
def unsaved : Store where
  nextSequence := 2
  albumCount := 0
  trackCount := 12
  albums := SlotTable.empty
  tracks := SlotTable.ofList ((List.range 12).map fun k => ⟨7, UInt32.ofNat k, 0, 0, 1, 1, .zero⟩)
  dirty := true
  wrapped := false

/-- A file that ends with the first block of the blob. -/
def firstBlock (blob : List UInt8) : Disk := ⟨some (blob.take serialIoBytes), 0, []⟩

/-- The first of two blocks is held, and the second one is not when it is not blank. -/
theorem changedBlocks_firstBlock {blob : List UInt8} (hlen : blob.length = 5008) {k : Nat}
    (hk : k < 912) {b : UInt8} (hb : blob[4096 + k]? = some b) (hne : b ≠ 0) :
    changedBlocks (resize blob.length (firstBlock blob).content) blob (blockOffsets blob.length) =
      [(4096, slice blob 4096 serialIoBytes)] := by
  have hcontent : resize blob.length (firstBlock blob).content =
      blob.take 4096 ++ List.replicate 912 0 := by
    change resize blob.length (blob.take 4096) = _
    rw [resize, List.take_take, List.length_take, hlen]
    rfl
  have htake : (blob.take 4096).length = 4096 := by
    rw [List.length_take, hlen]
    rfl
  have hheld : Held (blob.take 4096 ++ List.replicate 912 0) blob 0 := by
    refine slice_eq_iff.mpr fun i hi => ?_
    have hlt : 0 + i < 4096 := (Nat.zero_add i).symm ▸ hi
    rw [List.getElem?_append_left (by omega), List.getElem?_take_of_lt hlt]
  have hchanged : ¬ Held (blob.take 4096 ++ List.replicate 912 0) blob 4096 := by
    intro h
    have hbyte := slice_eq_iff.mp h k (hk.trans (by decide))
    rw [hb, List.getElem?_append_right (by omega), htake, Nat.add_sub_cancel_left,
      List.getElem?_replicate_of_lt hk] at hbyte
    exact hne (Option.some.inj hbyte).symm
  have hoffsets : blockOffsets blob.length = [0, 4096] := by
    rw [hlen]
    rfl
  rw [hcontent, hoffsets, changedBlocks, List.filter_cons_of_neg (by rw [decide_eq_true hheld]; decide),
    List.filter_cons_of_pos (by rw [decide_eq_false hchanged]; rfl)]
  rfl

/-- Of the two blocks of the blob only the second one is written. -/
theorem flushLocked_minimal_unsaved : ∃ blob d',
    flushLocked calm none unsaved (firstBlock blob) = ({ unsaved with dirty := false }, d', .ok) ∧
      d'.file = some blob ∧ blockOffsets blob.length = [0, 4096] ∧
      d'.writes = [(4096, slice blob 4096 serialIoBytes)] := by
  have hevaluated : (buildSerializedBlob unsaved).toOption.map (fun blob =>
      (blob.length, blob[4096 + 80]?)) = some (5008, some 7) := by
    decide +kernel
  cases hblob : buildSerializedBlob unsaved with
  | error err =>
    rw [hblob] at hevaluated
    cases hevaluated
  | ok blob =>
    rw [hblob] at hevaluated
    obtain ⟨hlen, hbyte⟩ := Prod.mk.inj (Option.some.inj hevaluated)
    obtain ⟨d', hflush, -, hfile, hwrites, -⟩ :=
      @flushLocked_minimal calm (firstBlock blob) blob (fun _ => rfl) none unsaved rfl hblob rfl
    have hchanged := changedBlocks_firstBlock hlen (by decide : 80 < 912) hbyte (by decide)
    refine ⟨blob, d', hflush, hfile, by rw [hlen]; rfl, ?_⟩
    rw [hwrites, hchanged]
    rfl

end Jukeboy.PlayHistory.MinimalWrites
