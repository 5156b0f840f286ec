import Jukeboy.Base.ByteLayout
import Jukeboy.Base.StringVector
import Jukeboy.Services.ScriptNames

/-! # Script arguments

`script_duplicate_argv` copies the path of a script and its arguments to the heap,
`script_prepare_builtin_argv` from there into the memory of the guest. -/
namespace Jukeboy.Services.ScriptArgv

open Jukeboy.Base Jukeboy.Base.ByteFile Jukeboy.Base.ByteLayout Jukeboy.Base.LittleEndian
open Jukeboy.Base.StringVector hiding Bytes
open Jukeboy.Services.ScriptNames

/-- `SCRIPT_SERVICE_MAX_ARGC`. -/
def maxArgc : Nat := 32

/-- `SCRIPT_SERVICE_MAX_ARG_LEN`. -/
def maxArgLen : Nat := 256

/-- `SCRIPT_SERVICE_MAX_ARG_STORAGE_BYTES`. -/
def maxArgStorageBytes : Nat := (maxArgc + 1) * (maxArgLen + 1)

inductive ArgvError where
  | tooMany
  | missing
  | path
  | argument (index : Nat)
  | storage
  | noMem
deriving DecidableEq, Repr

/-- The text in `result`; there is none when the allocation fails. -/
def ArgvError.message : ArgvError → Option String
  | .tooMany => some "too many script arguments (max 32)"
  | .missing => some "missing script arguments"
  | .path => some "script path exceeds max length (255)"
  | .argument index =>
    some ("script argument " ++ toString index ++ " exceeds max length (255)")
  | .storage => some "script arguments exceed max storage (8481 bytes)"
  | .noMem => none

/-- `argv_copy` and `argc_out`. The pointers are offsets into the storage, `none` is the
one that ends them. -/
structure ArgvCopy where
  argc : Nat
  pointers : List (Option Nat)
  storage : Bytes
deriving DecidableEq, Repr

/-! ## `script_duplicate_argv` -/

def strnlen (s : Bytes) (max : Nat) : Nat := min s.length max

def effectiveProgramPath (programPath : Option Bytes) : Bytes :=
  match programPath with
  | some path => if path ≠ [] then path else ascii "script"
  | none => ascii "script"

/-- The arguments in `argv`, a null pointer being an empty one. -/
def arguments (argc : Nat) (argv : Option (Nat → Option Bytes)) : List Bytes :=
  (List.range argc).map fun index => ((argv.bind fun argv => argv index).getD [])

/-- The loop that adds up `total_bytes`. -/
def totalBytes : Nat → List Bytes → Nat → Except ArgvError Nat
  | _, [], total => .ok total
  | index, arg :: args, total =>
    let argLen := strnlen arg maxArgLen
    if argLen ≥ maxArgLen then .error (.argument index)
    else
      let total := total + (argLen + 1)
      if total > maxArgStorageBytes then .error .storage else totalBytes (index + 1) args total

/-- The loop that copies, from a position in the storage on. -/
def copyArguments : Nat → List Bytes → List (Option Nat) × Bytes
  | _, [] => ([none], [])
  | position, arg :: args =>
    let (pointers, storage) := copyArguments (position + (arg.length + 1)) args
    (some position :: pointers, arg ++ 0 :: storage)

/-- `script_duplicate_argv`; `allocates` says whether `heap_caps_malloc` of a size succeeds. -/
def duplicateArgv (allocates : Nat → Bool) (programPath : Option Bytes) (argc : Int)
    (argv : Option (Nat → Option Bytes)) : Except ArgvError ArgvCopy :=
  let path := effectiveProgramPath programPath
  let programLen := strnlen path maxArgLen
  let args := arguments argc.toNat argv
  if argc < 0 ∨ argc > maxArgc then .error .tooMany
  else if argc > 0 ∧ argv.isNone then .error .missing
  else if programLen = 0 ∨ programLen ≥ maxArgLen then .error .path
  else
    match totalBytes 0 args (programLen + 1) with
    | .error e => .error e
    | .ok total =>
      let totalArgc := args.length + 1
      if allocates (4 * (totalArgc + 1) + total) then
        let (pointers, storage) := copyArguments 0 (path :: args)
        .ok ⟨totalArgc, pointers, storage⟩
      else .error .noMem

/-- What `script_prepare_context` makes of it; its own text takes the place of the other. -/
def argvResult : Except ArgvError ArgvCopy → Except (EspErr × String) ArgvCopy
  | .ok copy => .ok copy
  | .error _ => .error (.noMem, "out of memory copying arguments")

/-- The C strings that `context->argv` points to. -/
def ArgvCopy.argv (copy : ArgvCopy) (index : Nat) : Option Bytes :=
  ((copy.pointers[index]?).join).map (stringAt copy.storage)

def ArgvCopy.strings (copy : ArgvCopy) : List Bytes := arguments copy.argc (some copy.argv)

/-! ## `script_prepare_builtin_argv` -/

/-- What `wasm_runtime_module_malloc` returns: the offset of the block, whether there is a
native address of it, and the memory of the guest. -/
structure Allocation where
  offset : Nat
  native : Bool
  memory : Bytes

/-- The loop that writes offsets and strings; the table is at `offsets`. -/
def copyStrings : List Bytes → Nat → Nat → Nat → Bytes → Bytes
  | [], offsets, _, _, memory => overwrite memory offsets (leBytes 4 0)
  | arg :: args, offsets, stringStorage, nextStringOffset, memory =>
    let argLen := arg.length + 1
    let memory := overwrite memory offsets (leBytes 4 nextStringOffset)
    let memory := overwrite memory stringStorage (arg ++ [0])
    copyStrings args (offsets + 4) (stringStorage + argLen) ((nextStringOffset + argLen) % 2 ^ 32)
      memory

/-- `total_size`. -/
def totalSize (argv : List Bytes) : Nat :=
  4 * (argv.length + 1) + (argv.map fun arg => arg.length + 1).sum

/-- `script_prepare_builtin_argv`: the offset of the vector, and the memory with it. -/
def prepareBuiltinArgv (malloc : Nat → Allocation) (argv : List Bytes) :
    Except (EspErr × String) (Nat × Bytes) :=
  let block := malloc (totalSize argv)
  if block.offset = 0 ∨ block.native = false then
    .error (.noMem, "failed to allocate builtin argv")
  else
    let stringStorage := block.offset + 4 * (argv.length + 1)
    .ok (block.offset,
      copyStrings argv block.offset stringStorage (stringStorage % 2 ^ 32) block.memory)

/-! ## From the caller to the entry function -/

/-- What the entry function of a script is called with. -/
structure EntryCall where
  argc : Nat
  argv : Nat
  memory : Bytes

/-- `argc` and `argv` of `script_service_start`, up to the call of the entry function. -/
def passArguments (allocates : Nat → Bool) (malloc : Nat → Allocation)
    (resolvedPath : Bytes) (argc : Int) (argv : Option (Nat → Option Bytes)) :
    Except (EspErr × String) EntryCall := do
  let copy ← argvResult (duplicateArgv allocates (some resolvedPath) argc argv)
  let (offset, memory) ← prepareBuiltinArgv malloc copy.strings
  pure ⟨copy.argc, offset % 2 ^ 32, memory⟩

/-! ## The copy on the heap -/

variable {allocates : Nat → Bool} {programPath : Option Bytes} {argc : Int}
  {argv : Option (Nat → Option Bytes)} {copy : ArgvCopy}

theorem arguments_eq {argv : Nat → Option Bytes} {args : List Bytes}
    (h : ∀ i < args.length, argv i = args[i]?) : arguments args.length (some argv) = args := by
  refine List.ext_getElem? fun i => ?_
  rw [arguments, List.getElem?_map]
  by_cases hi : i < args.length
  · rw [List.getElem?_range hi, Option.map_some, Option.bind_some, h i hi,
      List.getElem?_eq_getElem hi]
    rfl
  · have hrange : (List.range args.length)[i]? = none := by
      rw [List.getElem?_eq_none_iff, List.length_range]
      omega
    rw [hrange, List.getElem?_eq_none (by omega)]
    rfl

theorem totalBytes_ok {index : Nat} {args : List Bytes} {total sum : Nat}
    (h : totalBytes index args total = .ok sum) : ∀ arg ∈ args, arg.length < maxArgLen := by
  induction args generalizing index total with
  | nil =>
    intro _ h
    cases h
  | cons arg args ih =>
    simp only [totalBytes] at h
    split at h
    · cases h
    · rename_i hlen
      rw [strnlen] at hlen
      split at h
      · cases h
      · exact List.forall_mem_cons.mpr ⟨by omega, ih h⟩

theorem totalBytes_of_lt (index : Nat) {args : List Bytes} {total : Nat}
    (h : ∀ arg ∈ args, arg.length < maxArgLen)
    (hfits : total + maxArgLen * args.length ≤ maxArgStorageBytes) :
    ∃ sum, totalBytes index args total = .ok sum ∧ sum ≤ maxArgStorageBytes := by
  induction args generalizing index total with
  | nil => exact ⟨total, rfl, by omega⟩
  | cons arg args ih =>
    obtain ⟨harg, hargs⟩ := List.forall_mem_cons.mp h
    rw [List.length_cons, Nat.mul_succ] at hfits
    have hmin : strnlen arg maxArgLen = arg.length := by
      rw [strnlen]
      omega
    simp only [totalBytes, hmin]
    rw [if_neg (by omega), if_neg (by omega)]
    exact ih (index + 1) hargs (by omega)

theorem totalBytes_error {index : Nat} {args : List Bytes} {total : Nat} {e : ArgvError}
    (h : totalBytes index args total = .error e) : e ≠ .noMem := by
  induction args generalizing index total with
  | nil => cases h
  | cons arg args ih =>
    simp only [totalBytes] at h
    split at h
    · cases h
      intro h
      cases h
    · split at h
      · cases h
        intro h
        cases h
      · exact ih h

theorem copyArguments_eq (position : Nat) (args : List Bytes) : copyArguments position args =
    ((starts position args).map some ++ [none], StringVector.storage args) := by
  induction args generalizing position with
  | nil => rfl
  | cons arg args ih => rw [copyArguments, ih, storage_cons, starts, List.map_cons, List.cons_append]

/-- The strings of a copy are those that were copied. -/
theorem strings_copyArguments {args : List Bytes} (hzero : ∀ arg ∈ args, 0 ∉ arg) :
    (ArgvCopy.mk args.length (copyArguments 0 args).1 (copyArguments 0 args).2).strings = args := by
  refine arguments_eq fun i hi => ?_
  have hs : args[i]? = some args[i] := List.getElem?_eq_getElem hi
  obtain ⟨before, after, hsplit, hstart⟩ := storage_split 0 hs
  rw [ArgvCopy.argv, copyArguments_eq, List.getElem?_append_left (by rwa [List.length_map,
    length_starts]), List.getElem?_map, hstart, hs, Option.map_some, Option.join_some,
    Option.map_some, Nat.zero_add, stringAt, hsplit, List.drop_left,
    takeWhile_terminated (hzero _ (List.getElem_mem hi))]

/-- The inputs that the limits turn away. -/
def OverLimit (programPath : Option Bytes) (argc : Int) (argv : Option (Nat → Option Bytes)) :
    Prop :=
  argc < 0 ∨ argc > maxArgc ∨ argc > 0 ∧ argv = none ∨
    maxArgLen ≤ (effectiveProgramPath programPath).length ∨
    ∃ arg ∈ arguments argc.toNat argv, maxArgLen ≤ arg.length

theorem effectiveProgramPath_ne_nil (programPath : Option Bytes) :
    effectiveProgramPath programPath ≠ [] := by
  unfold effectiveProgramPath
  split
  · split
    · assumption
    · exact List.cons_ne_nil _ _
  · exact List.cons_ne_nil _ _

/-- What is over a limit is turned away for it. -/
theorem duplicateArgv_overLimit (allocates : Nat → Bool)
    (h : OverLimit programPath argc argv) :
    ∃ e, duplicateArgv allocates programPath argc argv = .error e ∧ e ≠ .noMem := by
  simp only [duplicateArgv]
  split
  · exact ⟨_, rfl, fun h => by cases h⟩
  split
  · exact ⟨_, rfl, fun h => by cases h⟩
  split
  · exact ⟨_, rfl, fun h => by cases h⟩
  rename_i hargc hargv hpath
  split
  · rename_i e he
    exact ⟨e, rfl, totalBytes_error he⟩
  · rename_i total htotal
    have hlen := totalBytes_ok htotal
    rw [strnlen] at hpath
    obtain hneg | hmany | ⟨hsome, hnone⟩ | hlong | ⟨arg, harg, hlong⟩ := h
    · exact absurd (.inl hneg) hargc
    · exact absurd (.inr hmany) hargc
    · exact absurd ⟨hsome, by rw [hnone]; rfl⟩ hargv
    · exact absurd (.inr (by omega)) hpath
    · have := hlen arg harg
      omega

/-- The largest allocation for arguments within the limits. -/
def blockLimit : Nat := 4 * (maxArgc + 2) + maxArgStorageBytes

/-- What is within the limits is copied. -/
theorem duplicateArgv_ok (h : ¬ OverLimit programPath argc argv)
    (halloc : ∀ size ≤ blockLimit, allocates size = true) :
    ∃ copy, duplicateArgv allocates programPath argc argv = .ok copy ∧
      ((0 ∉ effectiveProgramPath programPath ∧ ∀ arg ∈ arguments argc.toNat argv, 0 ∉ arg) →
        copy.strings = effectiveProgramPath programPath :: arguments argc.toNat argv) ∧
      copy.argc = argc.toNat + 1 := by
  simp only [OverLimit, not_or, not_and, not_exists, Nat.not_le] at h
  obtain ⟨hneg, hmany, hnone, hpath, hargs⟩ := h
  have hcount : (arguments argc.toNat argv).length = argc.toNat := by
    rw [arguments, List.length_map, List.length_range]
  have hne := List.length_pos_iff.mpr (effectiveProgramPath_ne_nil programPath)
  have hmin : strnlen (effectiveProgramPath programPath) maxArgLen =
      (effectiveProgramPath programPath).length := by
    rw [strnlen]
    omega
  have hfits : (effectiveProgramPath programPath).length + 1 +
      maxArgLen * (arguments argc.toNat argv).length ≤ maxArgStorageBytes := by
    rw [hcount]
    simp only [maxArgStorageBytes, maxArgc, maxArgLen] at *
    omega
  obtain ⟨total, htotal, hbound⟩ := totalBytes_of_lt 0 hargs hfits
  simp only [duplicateArgv, hmin]
  rw [if_neg (by omega), if_neg, if_neg (by omega), htotal]
  · simp only
    rw [if_pos (halloc _ (by simp only [blockLimit]; omega))]
    refine ⟨_, rfl, ?_, ?_⟩
    · intro hzero
      exact strings_copyArguments (List.forall_mem_cons.mpr hzero)
    · exact congrArg Nat.succ hcount
  · rintro ⟨hpos, hisNone⟩
    exact hnone hpos (Option.isNone_iff_eq_none.mp hisNone)

/-! ## The block in the guest -/

variable {malloc : Nat → Allocation} {args : List Bytes}

theorem totalSize_eq (argv : List Bytes) :
    totalSize argv = 4 * (argv.length + 1) + (StringVector.storage argv).length := by
  have hsum (args : List Bytes) :
      (args.map fun arg => arg.length + 1).sum = (StringVector.storage args).length := by
    induction args with
    | nil => rfl
    | cons arg args ih =>
      rw [List.map_cons, List.sum_cons, ih, storage_cons, List.length_append, List.length_cons]
      omega
  rw [totalSize, hsum]

/-- The loop writes the table and, behind it, the strings. -/
theorem copyStrings_eq {offsets stringStorage next : Nat} {memory : Bytes}
    (htable : offsets + 4 * (args.length + 1) ≤ stringStorage)
    (hstorage : stringStorage + (StringVector.storage args).length ≤ memory.length)
    (hnext : next + (StringVector.storage args).length ≤ 2 ^ 32) :
    copyStrings args offsets stringStorage (next % 2 ^ 32) memory =
      overwrite (overwrite memory offsets ((starts next args ++ [0]).flatMap (leBytes 4)))
        stringStorage (StringVector.storage args) := by
  induction args generalizing offsets stringStorage next memory with
  | nil =>
    have hlong : stringStorage ≤
        (overwrite memory offsets ((starts next [] ++ [0]).flatMap (leBytes 4))).length := by
      rw [length_overwrite]
      · omega
      · rw [length_table]
        exact Nat.le_trans htable hstorage
    rw [copyStrings, StringVector.storage, List.flatMap_nil, overwrite_nil hlong]
    rfl
  | cons arg args ih =>
    rw [storage_cons, List.length_append, List.length_cons] at hstorage hnext
    rw [List.length_cons] at htable
    have hentry : (leBytes 4 next).length = 4 := length_leBytes 4 next
    have hstring : (arg ++ [0]).length = arg.length + 1 := List.length_append
    have htail : ((starts (next + (arg.length + 1)) args ++ [0]).flatMap (leBytes 4)).length =
        4 * (args.length + 1) := by
      rw [length_table, List.length_append, length_starts]
      rfl
    have hmod : next % 2 ^ 32 = next := Nat.mod_eq_of_lt (by omega)
    have hfirst : (overwrite memory offsets (leBytes 4 next)).length = memory.length :=
      length_overwrite (by omega)
    have hsecond : (overwrite (overwrite memory offsets (leBytes 4 next)) stringStorage
        (arg ++ [0])).length = memory.length := by
      rw [length_overwrite (by omega), hfirst]
    have hcomm : overwrite (overwrite (overwrite memory offsets (leBytes 4 next)) stringStorage
          (arg ++ [0])) (offsets + 4)
          ((starts (next + (arg.length + 1)) args ++ [0]).flatMap (leBytes 4)) =
        overwrite (overwrite (overwrite memory offsets (leBytes 4 next)) (offsets + 4)
          ((starts (next + (arg.length + 1)) args ++ [0]).flatMap (leBytes 4))) stringStorage
          (arg ++ [0]) := (overwrite_comm (by omega) (by omega)).symm
    have happend : overwrite (overwrite memory offsets (leBytes 4 next)) (offsets + 4)
        ((starts (next + (arg.length + 1)) args ++ [0]).flatMap (leBytes 4)) =
        overwrite memory offsets ((starts next (arg :: args) ++ [0]).flatMap (leBytes 4)) := by
      have hstart : offsets ≤ memory.length := by omega
      have h := overwrite_append hstart (leBytes 4 next)
        ((starts (next + (arg.length + 1)) args ++ [0]).flatMap (leBytes 4))
      rw [hentry] at h
      exact h
    have hlong : stringStorage ≤
        (overwrite memory offsets ((starts next (arg :: args) ++ [0]).flatMap (leBytes 4))).length := by
      rw [← happend, length_overwrite (by omega)]
      omega
    simp only [copyStrings]
    rw [Nat.mod_add_mod, hmod, ih ?_ ?_ ?_, hcomm, happend, ← hstring, overwrite_append hlong,
      storage_cons, List.append_assoc]
    · rfl
    · omega
    · omega
    · omega

/-- The allocation of a size succeeds: it is a block inside the memory, which has at most
4 GiB. -/
structure Gives (malloc : Nat → Allocation) (size : Nat) : Prop where
  offset : (malloc size).offset ≠ 0
  native : (malloc size).native = true
  inside : (malloc size).offset + size ≤ (malloc size).memory.length
  bound : (malloc size).memory.length ≤ 2 ^ 32

/-- **The guest's block** holds the strings. -/
theorem prepareBuiltinArgv_holds (argv : List Bytes) (hgives : Gives malloc (totalSize argv)) :
    ∃ offset memory, prepareBuiltinArgv malloc argv = .ok (offset, memory) ∧
      (malloc (totalSize argv)).offset = offset ∧ offset < 2 ^ 32 ∧ Holds memory offset argv := by
  obtain ⟨hoffset, hnative, hinside, hbound⟩ := hgives
  have hsize := totalSize_eq argv
  simp only [prepareBuiltinArgv]
  generalize malloc (totalSize argv) = allocation at *
  have htable : ((starts (allocation.offset + 4 * (argv.length + 1)) argv ++ [0]).flatMap
      (leBytes 4)).length = 4 * (argv.length + 1) := by
    rw [length_table, List.length_append, length_starts]
    rfl
  have hcopied : copyStrings argv allocation.offset (allocation.offset + 4 * (argv.length + 1))
      ((allocation.offset + 4 * (argv.length + 1)) % 2 ^ 32) allocation.memory =
      overwrite (overwrite allocation.memory allocation.offset
        ((starts (allocation.offset + 4 * (argv.length + 1)) argv ++ [0]).flatMap (leBytes 4)))
        (allocation.offset + 4 * (argv.length + 1)) (StringVector.storage argv) :=
    copyStrings_eq (Nat.le_refl _) (by omega) (by omega)
  have hstart : allocation.offset ≤ allocation.memory.length := by omega
  have happend := overwrite_append hstart
    ((starts (allocation.offset + 4 * (argv.length + 1)) argv ++ [0]).flatMap (leBytes 4))
    (StringVector.storage argv)
  have hwritten := overwrite_of_le hstart (block allocation.offset argv)
  rw [htable] at happend
  rw [if_neg (by simp [hoffset, hnative]), hcopied, happend]
  refine ⟨_, _, rfl, rfl, by omega, ⟨_, _, hwritten, List.length_take_of_le hstart⟩, ?_⟩
  rw [length_block]
  omega

/-! ## End to end -/

/-- A C string within the limit. -/
def Argument (s : Bytes) : Prop := 0 ∉ s ∧ s.length < maxArgLen

theorem length_storage_le (hargs : ∀ s ∈ args, Argument s) :
    (StringVector.storage args).length ≤ maxArgLen * args.length := by
  induction args with
  | nil => exact Nat.zero_le _
  | cons s args ih =>
    obtain ⟨hs, hrest⟩ := List.forall_mem_cons.mp hargs
    have := hs.2
    have := ih hrest
    rw [storage_cons, List.length_append, List.length_cons, List.length_cons, Nat.mul_succ]
    omega

/-- **The arguments arrive** as they are passed, in a block that was allocated for them. -/
theorem passArguments_ok {path : Bytes} (hne : path ≠ []) (hpath : Argument path)
    (hargs : ∀ s ∈ args, Argument s) (hcount : args.length ≤ maxArgc)
    (hheap : ∀ size ≤ blockLimit, allocates size = true)
    (hguest : ∀ size ≤ blockLimit, Gives malloc size) :
    ∃ call size, passArguments allocates malloc path args.length (some fun i => args[i]?) = .ok call ∧
      (malloc size).offset = call.argv ∧ WellPlaced call.memory call.argv size call.argc ∧
      vector call.memory call.argv call.argc = path :: args := by
  have hlist : arguments args.length (some fun i => args[i]?) = args := arguments_eq fun _ _ => rfl
  have heffective : effectiveProgramPath (some path) = path := if_pos hne
  have hall : ∀ s ∈ path :: args, Argument s := List.forall_mem_cons.mpr ⟨hpath, hargs⟩
  have hzero : ∀ s ∈ path :: args, 0 ∉ s := fun s hs => (hall s hs).1
  have hlimits : ¬ OverLimit (some path) args.length (some fun i => args[i]?) := by
    rw [OverLimit, Int.toNat_natCast, hlist, heffective]
    rintro (h | h | ⟨-, h⟩ | h | ⟨s, hs, h⟩)
    · omega
    · omega
    · cases h
    · exact absurd hpath.2 (Nat.not_lt.mpr h)
    · exact absurd (hargs s hs).2 (Nat.not_lt.mpr h)
  obtain ⟨copy, hcopy, hstrings, hargc⟩ := duplicateArgv_ok hlimits hheap
  rw [Int.toNat_natCast, hlist, heffective] at hstrings
  have hcopied := hstrings (List.forall_mem_cons.mp hzero)
  have hsize : totalSize (path :: args) ≤ blockLimit := by
    have hstorage := length_storage_le hall
    rw [totalSize_eq]
    simp only [blockLimit, maxArgStorageBytes, maxArgc, maxArgLen, List.length_cons] at *
    omega
  obtain ⟨offset, memory, hprepare, hoffset, hlt, hholds⟩ :=
    prepareBuiltinArgv_holds (path :: args) (hguest _ hsize)
  have hblock : totalSize (path :: args) = (block offset (path :: args)).length := by
    rw [totalSize_eq, length_block]
  have hcall : passArguments allocates malloc path args.length (some fun i => args[i]?) =
      .ok ⟨args.length + 1, offset, memory⟩ := by
    rw [passArguments, hcopy]
    change (prepareBuiltinArgv malloc copy.strings >>= fun p =>
      pure (EntryCall.mk copy.argc (p.1 % 2 ^ 32) p.2)) = _
    rw [hcopied, hprepare, hargc, Int.toNat_natCast]
    change Except.ok (EntryCall.mk (args.length + 1) (offset % 2 ^ 32) memory) = _
    rw [Nat.mod_eq_of_lt hlt]
  refine ⟨_, totalSize (path :: args), hcall, hoffset, ?_, hholds.vector hzero⟩
  rw [hblock]
  exact hholds.wellPlaced hzero

end Jukeboy.Services.ScriptArgv
