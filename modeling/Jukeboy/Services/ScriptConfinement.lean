import Mathlib.Data.List.TakeWhile
import Jukeboy.Services.ScriptNames

/-! # Script names stay in their directories

A name that is accepted has no slash and no dot, so the paths that are built from it stay
under their roots, and a log file is named after one script. The file system of the logs
takes names that differ in case only for one. -/
namespace Jukeboy.Services.ScriptNames

open Jukeboy.Base

/-! ## The last of a character -/

theorem strrchr_eq_none {ch : UInt8} {s : Bytes} (h : ch ∉ s) : strrchr ch s = none := by
  induction s with
  | nil => rfl
  | cons x rest ih =>
    obtain ⟨hx, hrest⟩ := not_or.mp (fun hor => h (List.mem_cons.mpr hor))
    rw [strrchr, ih hrest]
    exact if_neg (Ne.symm hx)

theorem strrchr_append {ch : UInt8} (before : Bytes) {after : Bytes} (h : ch ∉ after) :
    strrchr ch (before ++ ch :: after) = some before.length := by
  induction before with
  | nil =>
    rw [List.nil_append, strrchr, strrchr_eq_none h]
    exact if_pos rfl
  | cons x rest ih => rw [List.cons_append, strrchr, ih, List.length_cons]

theorem splitExtension_append (input : Bytes) :
    (splitExtension input).1 ++ ((splitExtension input).2).getD [] = input := by
  unfold splitExtension
  split
  · exact List.take_append_drop _ input
  · exact List.append_nil input

theorem lastComponent_append (before : Bytes) {after : Bytes} (h : slash ∉ after) :
    lastComponent (before ++ [slash] ++ after) = after := by
  rw [List.append_assoc, List.singleton_append, lastComponent, strrchr_append before h]
  change List.drop (before.length + 1) (before ++ slash :: after) = after
  rw [← List.drop_drop, List.drop_left]
  rfl

/-! ## Names -/

theorem nameChar_ne {ch c : UInt8} (h : isNameChar ch = true) (hc : isNameChar c = false) :
    ch ≠ c := by
  rintro rfl
  rw [h] at hc
  cases hc

theorem ScriptName.notMem (name : ScriptName) {c : UInt8} (hc : isNameChar c = false) :
    c ∉ name.stem := fun hmem => nameChar_ne (name.chars c hmem) hc rfl

theorem supportedExtension_bytes {bytes : Bytes} {e : Extension}
    (h : supportedExtension bytes = some e) : bytes = e.bytes := by
  unfold supportedExtension at h
  split at h
  · cases h; assumption
  · split at h
    · cases h; assumption
    · split at h
      · cases h; assumption
      · cases h

/-- An accepted input is a name and at most one extension. -/
theorem parseName_ok {input : Bytes} {size : Nat} {n : Parsed} (h : parseName input size = .ok n) :
    input = n.name.stem ++ suffix n.extension := by
  have hsplit := splitExtension_append input
  simp only [parseName] at h
  split at h
  · cases h
  split at h
  · cases h
  split at h
  · cases h
  split at h
  · cases h
  split at h
  · split at h
    · rename_i hnone
      rw [hnone] at hsplit
      cases h
      exact hsplit.symm
    · rename_i bytes hsome
      rw [hsome] at hsplit
      split at h
      · cases h
      · rename_i e he
        cases h
        rw [supportedExtension_bytes he] at hsplit
        exact hsplit.symm
  · cases h

/-- The extensions differ in their lengths. -/
theorem eq_of_length_suffix {e f : Option Extension}
    (h : (suffix e).length = (suffix f).length) : e = f := by
  obtain _ | e := e <;> obtain _ | f := f
  · rfl
  · cases f <;> exact absurd h (by decide)
  · cases e <;> exact absurd h (by decide)
  · cases e <;> cases f
    all_goals first
      | rfl
      | exact absurd h (by decide)

theorem suffix_injective {e f : Option Extension} (h : suffix e = suffix f) : e = f :=
  eq_of_length_suffix (congrArg List.length h)

theorem length_suffix_le (e : Option Extension) : (suffix e).length ≤ 6 := by
  obtain _ | _ | _ | _ := e
  all_goals decide

theorem notMem_suffix {c : UInt8} (e : Option Extension) (h : c ≠ dot)
    (hc : isNameChar c = false) : c ∉ suffix e := by
  intro hmem
  have hall : ∀ x ∈ suffix e, x = dot ∨ isNameChar x = true := by
    obtain _ | _ | _ | _ := e
    all_goals decide +kernel
  obtain rfl | hx := hall c hmem
  · exact h rfl
  · rw [hc] at hx
    cases hx

/-- The file name of a script. -/
def fileName (name : ScriptName) (e : Option Extension) : Bytes := name.stem ++ suffix e

theorem slash_notMem_fileName (name : ScriptName) (e : Option Extension) :
    slash ∉ fileName name e := by
  intro hmem
  obtain hmem | hmem := List.mem_append.mp hmem
  · exact name.notMem (by decide) hmem
  · exact notMem_suffix e (by decide) (by decide) hmem

theorem lastComponent_scriptPath (name : ScriptName) (e : Option Extension) :
    lastComponent (scriptPath name e) = fileName name e := by
  have happend := lastComponent_append (rootPath ++ [slash] ++ name.stem)
    (slash_notMem_fileName name e)
  rw [scriptPath, List.append_assoc]
  exact happend

/-- The name is what comes before the first dot. -/
theorem takeWhile_fileName (name : ScriptName) (e : Option Extension) :
    (fileName name e).takeWhile (· ≠ dot) = name.stem := by
  have hstem : name.stem.takeWhile (· ≠ dot) = name.stem := by
    rw [List.takeWhile_eq_self_iff]
    intro ch hch
    exact decide_eq_true (nameChar_ne (name.chars ch hch) (by decide))
  have hsuffix : (suffix e).takeWhile (· ≠ dot) = [] := by
    obtain _ | _ | _ | _ := e
    all_goals decide
  rw [fileName, List.takeWhile_append_of_pos, hsuffix, List.append_nil]
  intro ch hch
  exact decide_eq_true (nameChar_ne (name.chars ch hch) (by decide))

theorem fileName_injective {n m : ScriptName} {e f : Option Extension}
    (h : fileName n e = fileName m f) : n = m ∧ e = f := by
  have hstem : n.stem = m.stem := by
    rw [← takeWhile_fileName n e, h, takeWhile_fileName]
  refine ⟨?_, suffix_injective ?_⟩
  · cases n
    cases m
    cases hstem
    rfl
  · rw [fileName, fileName, hstem] at h
    exact List.append_cancel_left h

theorem scriptPath_injective {n m : ScriptName} {e f : Option Extension}
    (h : scriptPath n e = scriptPath m f) : n = m ∧ e = f := by
  refine fileName_injective ?_
  rw [← lastComponent_scriptPath, h, lastComponent_scriptPath]

/-! ## Resolving -/

variable {regular : Bytes → Bool} {input path : Bytes} {outSize : Nat}

theorem format_ok {out : Bytes} (h : format path outSize = .ok out) :
    out = path ∧ path.length < outSize := by
  unfold format at h
  split at h
  · cases h
  · rename_i hfits
    cases h
    exact ⟨rfl, by omega⟩

theorem copyCandidate_some {candidate : Bytes}
    (h : copyCandidate regular candidate outSize = some path) :
    path = candidate ∧ path.length < outSize := by
  unfold copyCandidate at h
  split at h
  · rename_i hc
    cases h
    exact ⟨rfl, hc.2⟩
  · cases h

theorem tryVariant_some {base : Bytes} {e : Extension}
    (h : tryVariant regular base outSize e = some path) :
    path = base ++ e.bytes ∧ path.length < outSize := by
  simp only [tryVariant] at h
  split at h
  · exact copyCandidate_some h
  · cases h

theorem orElse_some {α : Type} {x y : Option α} {a : α} (h : (x <|> y) = some a) :
    x = some a ∨ y = some a := by
  cases x with
  | none => exact .inr h
  | some b => exact .inl h

theorem tryPathVariants_some {base : Bytes} (h : tryPathVariants regular base outSize = some path) :
    ∃ e, path = base ++ suffix e ∧ path.length < outSize := by
  have hvariant {e : Extension} (h : tryVariant regular base outSize e = some path) :
      ∃ e, path = base ++ suffix e ∧ path.length < outSize := ⟨some e, tryVariant_some h⟩
  unfold tryPathVariants at h
  split at h
  · rename_i hbase
    cases h
    obtain ⟨hpath, hlen⟩ := copyCandidate_some hbase
    exact ⟨none, hpath.trans (List.append_nil base).symm, hlen⟩
  · split at h
    · cases h
    · obtain h | h := orElse_some h
      · exact hvariant h
      · obtain h | h := orElse_some h
        · exact hvariant h
        · exact hvariant h

theorem scriptPath_none (name : ScriptName) (e : Option Extension) :
    scriptPath name none ++ suffix e = scriptPath name e := by
  simp only [scriptPath, List.append_assoc]
  rfl

theorem buildResolveBasePath_ok {candidate : Bytes} {has : Bool}
    (h : buildResolveBasePath input outSize = .ok (candidate, has)) :
    ∃ n, parseName input maxPathLen = .ok n ∧ candidate = scriptPath n.name n.extension ∧
      candidate.length < outSize ∧ has = n.extension.isSome := by
  obtain ⟨n, hn, h⟩ := bind_ok h
  obtain ⟨out, hout, h⟩ := bind_ok h
  obtain ⟨rfl, hlen⟩ := format_ok hout
  cases h
  exact ⟨n, hn, rfl, hlen, rfl⟩

/-- What is resolved is the script of the name, with at most one extension. -/
theorem resolvePath_ok (h : resolvePath regular input outSize = .ok path) :
    ∃ n e, parseName input maxPathLen = .ok n ∧ path = scriptPath n.name e ∧
      (n.extension ≠ none → e = n.extension) ∧
      (scriptPath n.name n.extension).length < maxPathLen ∧ path.length < outSize := by
  unfold resolvePath at h
  split at h
  · cases h
  · obtain ⟨⟨candidate, has⟩, hbase, h⟩ := bind_ok h
    obtain ⟨n, hn, rfl, hlen, rfl⟩ := buildResolveBasePath_ok hbase
    simp only at h
    split at h
    · rename_i resolved hfound
      cases h
      cases hext : n.extension with
      | none =>
        simp only [hext] at hfound
        obtain ⟨e, hpath, hshort⟩ := tryPathVariants_some hfound
        rw [scriptPath_none] at hpath
        exact ⟨n, e, hn, hpath, fun hne => absurd hext hne, hext ▸ hlen, hshort⟩
      | some e =>
        simp only [hext] at hfound
        obtain ⟨hpath, hshort⟩ := copyCandidate_some hfound
        exact ⟨n, some e, hn, hpath, fun _ => hext.symm, hext ▸ hlen, hshort⟩
    · cases h

theorem zero_notMem_scriptPath (name : ScriptName) (e : Option Extension) :
    0 ∉ scriptPath name e := by
  have hname : (0 : UInt8) ∉ name.stem := name.notMem (by decide)
  have hroot : (0 : UInt8) ∉ rootPath ++ [slash] := by decide +kernel
  have hsuffix : (0 : UInt8) ∉ suffix e := notMem_suffix e (by decide) (by decide)
  simp only [scriptPath, List.mem_append, not_or] at hroot ⊢
  exact ⟨⟨⟨⟨hroot, hname⟩, hroot.2⟩, hname⟩, hsuffix⟩

/-- What is resolved is a C string. -/
theorem resolvePath_cString (h : resolvePath regular input outSize = .ok path) :
    path ≠ [] ∧ 0 ∉ path ∧ path.length < outSize := by
  obtain ⟨n, e, -, rfl, -, -, hshort⟩ := resolvePath_ok h
  refine ⟨?_, zero_notMem_scriptPath n.name e, hshort⟩
  simp [scriptPath]

/-- The path of a log file. -/
def logPath (name : ScriptName) (e : Option Extension) : Bytes :=
  logRootPath ++ [slash] ++ fileName name e ++ ascii ".log"

theorem buildLogPath_ok {name : ScriptName} {e : Option Extension} {out : Bytes}
    (h : buildLogPath (scriptPath name e) outSize = .ok out) : out = logPath name e := by
  unfold buildLogPath at h
  split at h
  · cases h
  · split at h
    · cases h
    · rw [lastComponent_scriptPath] at h
      exact (format_ok h).1

/-! ## What is claimed -/

/-- The input is the name, or the name with one extension. -/
def NameOf (input : Bytes) (name : ScriptName) : Prop :=
  ∃ e, input = name.stem ++ suffix e

/-- What is built from the input stays in the directory of the script and right under the
roots. -/
structure Confined (regular : Bytes → Bool) (input : Bytes) : Prop where
  resolved : ∀ outSize path, resolvePath regular input outSize = .ok path →
    ∃ name e, NameOf input name ∧
      path = rootPath ++ [slash] ++ name.stem ++ [slash] ++ name.stem ++ suffix e
  directory : ∀ outSize path, getScriptDirectory input outSize = .ok path →
    ∃ name, NameOf input name ∧ path = rootPath ++ [slash] ++ name.stem
  log : ∀ outSize path, getLogPath regular input outSize = .ok path →
    ∃ name e, NameOf input name ∧
      path = logRootPath ++ [slash] ++ (name.stem ++ suffix e) ++ ascii ".log"

/-- Where two inputs resolve to different files, their logs are different files;
`sameFile` is whether the file system of the logs takes two paths for one. -/
def Separate (sameFile : Bytes → Bytes → Prop) (regular : Bytes → Bool) (a b : Bytes) : Prop :=
  ∀ sizeA sizeB p q, resolvePath regular a sizeA = .ok p → resolvePath regular b sizeB = .ok q →
    p ≠ q → ∀ logSizeA logSizeB logA logB, buildLogPath p logSizeA = .ok logA →
      buildLogPath q logSizeB = .ok logB → ¬ sameFile logA logB

theorem nameOf_parse {n : Parsed} {size : Nat} (h : parseName input size = .ok n) :
    NameOf input n.name := ⟨n.extension, parseName_ok h⟩

theorem confined (regular : Bytes → Bool) (input : Bytes) : Confined regular input where
  resolved outSize path h := by
    obtain ⟨n, e, hn, rfl, -, -⟩ := resolvePath_ok h
    exact ⟨n.name, e, nameOf_parse hn, rfl⟩
  directory outSize path h := by
    obtain ⟨n, hn, h⟩ := bind_ok h
    exact ⟨n.name, nameOf_parse hn, (format_ok h).1⟩
  log outSize path h := by
    unfold getLogPath at h
    split at h
    · cases h
    · obtain ⟨resolved, hresolved, h⟩ := bind_ok h
      obtain ⟨n, e, hn, rfl, -, -⟩ := resolvePath_ok hresolved
      exact ⟨n.name, e, nameOf_parse hn, buildLogPath_ok h⟩

/-! ## Names that differ in case -/

def asciiUpper (ch : UInt8) : UInt8 := if 97 ≤ ch ∧ ch ≤ 122 then ch - 32 else ch

theorem asciiUpper_ne_dot {ch : UInt8} (h : isNameChar ch = true) : asciiUpper ch ≠ dot := by
  have hall : ∀ n : Fin 256, isNameChar (UInt8.ofFin n) = true →
      asciiUpper (UInt8.ofFin n) ≠ dot := by decide +kernel
  exact hall ch.toFin h

theorem takeWhile_upper_fileName (name : ScriptName) (e : Option Extension) :
    ((fileName name e).map asciiUpper).takeWhile (· ≠ dot) = name.stem.map asciiUpper := by
  have hsuffix : ((suffix e).map asciiUpper).takeWhile (· ≠ dot) = [] := by
    obtain _ | _ | _ | _ := e
    all_goals decide
  rw [fileName, List.map_append, List.takeWhile_append_of_pos, hsuffix, List.append_nil]
  intro ch hch
  obtain ⟨x, hx, rfl⟩ := List.mem_map.mp hch
  exact decide_eq_true (asciiUpper_ne_dot (name.chars x hx))

theorem upper_suffix_injective {e f : Option Extension}
    (h : (suffix e).map asciiUpper = (suffix f).map asciiUpper) : e = f := by
  have hlen := congrArg List.length h
  rw [List.length_map, List.length_map] at hlen
  exact eq_of_length_suffix hlen

/-- Log paths differ in case only when the names do. -/
theorem upper_logPath_iff {n m : ScriptName} {e f : Option Extension} :
    (logPath n e).map asciiUpper = (logPath m f).map asciiUpper ↔
      n.stem.map asciiUpper = m.stem.map asciiUpper ∧ e = f := by
  constructor
  · intro h
    simp only [logPath, List.map_append, List.append_assoc] at h
    have hfile : (fileName n e).map asciiUpper = (fileName m f).map asciiUpper :=
      List.append_cancel_right (List.append_cancel_left (List.append_cancel_left h))
    have hstem : n.stem.map asciiUpper = m.stem.map asciiUpper := by
      rw [← takeWhile_upper_fileName n e, hfile, takeWhile_upper_fileName]
    refine ⟨hstem, upper_suffix_injective ?_⟩
    rw [fileName, fileName, List.map_append, List.map_append, hstem] at hfile
    exact List.append_cancel_left hfile
  · rintro ⟨hstem, rfl⟩
    simp only [logPath, fileName, List.map_append, hstem]

theorem logPath_ascii (name : ScriptName) (e : Option Extension) :
    ∀ ch ∈ logPath name e, ch < 128 := by
  have hname : ∀ n : Fin 256, isNameChar (UInt8.ofFin n) = true → UInt8.ofFin n < 128 := by
    decide +kernel
  have hroot : ∀ ch ∈ logRootPath ++ [slash], ch < 128 := by decide +kernel
  have hsuffix : ∀ ch ∈ suffix e ++ ascii ".log", ch < 128 := by
    obtain _ | _ | _ | _ := e
    all_goals decide +kernel
  intro ch hch
  simp only [logPath, fileName, List.append_assoc] at hch
  rw [← List.append_assoc] at hch
  obtain hch | hch := List.mem_append.mp hch
  · exact hroot ch hch
  · obtain hch | hch := List.mem_append.mp hch
    · exact hname ch.toFin (name.chars ch hch)
    · exact hsuffix ch hch

/-- Both inputs are accepted, their names differ, but in case only, and there can be files
for both with the same extension. -/
def DifferInCase (a b : Bytes) : Prop :=
  ∃ n m, parseName a maxPathLen = .ok n ∧ parseName b maxPathLen = .ok m ∧ n.name ≠ m.name ∧
    n.name.stem.map asciiUpper = m.name.stem.map asciiUpper ∧
    (n.extension = none ∨ m.extension = none ∨ n.extension = m.extension) ∧
    (scriptPath n.name (n.extension <|> m.extension)).length < maxPathLen

/-! ## Scripts that are there -/

theorem dot_notMem_scriptPath (name : ScriptName) : dot ∉ scriptPath name none := by
  have hname : dot ∉ name.stem := name.notMem (by decide)
  have hroot : dot ∉ rootPath ++ [slash] := by decide
  simp only [scriptPath, List.mem_append, not_or] at hroot ⊢
  exact ⟨⟨⟨⟨hroot, hname⟩, by decide⟩, hname⟩, by decide⟩

theorem hasExtension_scriptPath (name : ScriptName) : hasExtension (scriptPath name none) = false := by
  unfold hasExtension
  rw [strrchr_eq_none (dot_notMem_scriptPath name)]

theorem length_scriptPath (name : ScriptName) (e : Option Extension) :
    (scriptPath name e).length = 14 + 2 * name.stem.length + (suffix e).length := by
  have hroot : rootPath.length = 12 := by decide
  simp only [scriptPath, List.length_append, hroot, List.length_singleton]
  omega

theorem copyCandidate_of_regular (hregular : regular path = true) (hlen : path.length < outSize) :
    copyCandidate regular path outSize = some path := if_pos ⟨hregular, hlen⟩

theorem copyCandidate_of_not (hregular : regular path = false) :
    copyCandidate regular path outSize = none := by
  refine if_neg fun h => ?_
  rw [hregular] at h
  cases h.1

theorem tryVariant_scriptPath (name : ScriptName) (e : Extension) :
    tryVariant regular (scriptPath name none) maxPathLen e =
      if (scriptPath name (some e)).length < maxPathLen
      then copyCandidate regular (scriptPath name (some e)) maxPathLen else none := by
  have hpath : scriptPath name none ++ e.bytes = scriptPath name (some e) :=
    scriptPath_none name (some e)
  have hpos : 0 < (scriptPath name (some e)).length := by
    rw [length_scriptPath]
    omega
  simp only [tryVariant, hpath, hpos, true_and]

/-- The one file that is there for a name is found. -/
theorem tryPathVariants_found {name : ScriptName} {e : Option Extension}
    (hlen : (scriptPath name e).length < maxPathLen) (hregular : regular (scriptPath name e) = true)
    (hothers : ∀ f, f ≠ e → regular (scriptPath name f) = false) :
    tryPathVariants regular (scriptPath name none) maxPathLen = some (scriptPath name e) := by
  have hnone {f : Extension} (hf : some f ≠ e) :
      tryVariant regular (scriptPath name none) maxPathLen f = none := by
    rw [tryVariant_scriptPath, copyCandidate_of_not (hothers _ hf), ite_self]
  have hsome {f : Extension} (hf : some f = e) :
      tryVariant regular (scriptPath name none) maxPathLen f = some (scriptPath name e) := by
    rw [tryVariant_scriptPath, hf, if_pos hlen, copyCandidate_of_regular hregular hlen]
  unfold tryPathVariants
  cases e with
  | none => rw [copyCandidate_of_regular hregular hlen]
  | some x =>
    rw [copyCandidate_of_not (hothers none (by simp)), hasExtension_scriptPath]
    simp only [Bool.false_eq_true, if_false]
    cases x with
    | wasm => rw [hsome rfl]; rfl
    | cwasm => rw [hnone (by decide), hsome rfl]; rfl
    | aot => rw [hnone (by decide), hnone (by decide), hsome rfl]; rfl

theorem resolvePath_found {n : Parsed} {e : Option Extension}
    (hn : parseName input maxPathLen = .ok n) (he : n.extension = none ∨ n.extension = e)
    (hlen : (scriptPath n.name e).length < maxPathLen)
    (hregular : regular (scriptPath n.name e) = true)
    (hothers : ∀ f, f ≠ e → regular (scriptPath n.name f) = false) :
    resolvePath regular input maxPathLen = .ok (scriptPath n.name e) := by
  have hinput : input ≠ [] := by
    rw [parseName_ok hn]
    intro hnil
    exact n.name.nonempty (List.append_eq_nil_iff.mp hnil).1
  have hbaseLen : (scriptPath n.name n.extension).length < maxPathLen := by
    obtain hext | hext := he
    · rw [hext]
      rw [length_scriptPath] at hlen ⊢
      exact Nat.lt_of_le_of_lt (Nat.add_le_add_left (Nat.zero_le _) _) hlen
    · rw [hext]
      exact hlen
  have hbase : buildResolveBasePath input maxPathLen =
      .ok (scriptPath n.name n.extension, n.extension.isSome) := by
    unfold buildResolveBasePath format
    rw [hn]
    change (if _ then _ else _ : Except EspErr Bytes) >>= _ = _
    rw [if_neg (by rw [length_scriptPath] at hbaseLen ⊢; omega)]
    rfl
  unfold resolvePath
  rw [if_neg (by simp [hinput, maxPathLen]), hbase]
  dsimp only [bind, Except.bind]
  cases hext : n.extension with
  | none =>
    simp only [Option.isSome_none, Bool.false_eq_true, if_false]
    rw [tryPathVariants_found hlen hregular hothers]
  | some x =>
    obtain rfl : some x = e := by
      rw [hext] at he
      exact he.resolve_left (by simp)
    simp only [Option.isSome_some, if_true]
    rw [copyCandidate_of_regular hregular hlen]

theorem buildLogPath_scriptPath {name : ScriptName} {e : Option Extension}
    (hlen : (scriptPath name e).length < maxPathLen) :
    buildLogPath (scriptPath name e) maxPathLen = .ok (logPath name e) := by
  have hpath : scriptPath name e ≠ [] := by
    intro hnil
    have hzero := congrArg List.length hnil
    rw [length_scriptPath, List.length_nil] at hzero
    omega
  have hfile : fileName name e ≠ [] := fun hnil =>
    name.nonempty (List.append_eq_nil_iff.mp hnil).1
  have hlog : (logPath name e).length = 21 + name.stem.length + (suffix e).length := by
    have hroot : logRootPath.length = 16 := by decide
    have hend : (ascii ".log").length = 4 := by decide
    simp only [logPath, fileName, List.length_append, hroot, hend, List.length_singleton]
    omega
  have hsuffix := length_suffix_le e
  rw [length_scriptPath] at hlen
  unfold buildLogPath format
  rw [lastComponent_scriptPath, if_neg (by simp [hpath, maxPathLen]), if_neg hfile]
  refine if_neg ?_
  change ¬ ((logPath name e).length = 0 ∨ maxPathLen ≤ (logPath name e).length)
  rw [hlog, maxPathLen]
  rw [maxPathLen] at hlen
  omega

theorem not_separate {sameFile : Bytes → Bytes → Prop}
    (hsame : ∀ p q, (∀ ch ∈ p, ch < 128) → (∀ ch ∈ q, ch < 128) →
      (sameFile p q ↔ p.map asciiUpper = q.map asciiUpper)) {a b : Bytes} (h : DifferInCase a b) :
    ∃ regular, ¬ Separate sameFile regular a b := by
  obtain ⟨n, m, hn, hm, hne, hstem, hext, hlen⟩ := h
  generalize he : (n.extension <|> m.extension) = e at hlen
  have hnext : n.extension = none ∨ n.extension = e := by
    cases hx : n.extension with
    | none => exact .inl rfl
    | some x => rw [hx] at he; exact .inr he
  have hmext : m.extension = none ∨ m.extension = e := by
    cases hx : n.extension with
    | none => rw [hx] at he; exact .inr he
    | some x =>
      rw [hx] at he hext
      obtain hext | hext | hext := hext
      · cases hext
      · exact .inl hext
      · exact .inr (hext.symm.trans he)
  have hmlen : (scriptPath m.name e).length < maxPathLen := by
    have hlength := congrArg List.length hstem
    rw [List.length_map, List.length_map] at hlength
    rw [length_scriptPath] at hlen ⊢
    rw [← hlength]
    exact hlen
  let regular (p : Bytes) : Bool := p = scriptPath n.name e ∨ p = scriptPath m.name e
  have hothers (name : ScriptName) (f : Option Extension) (hf : f ≠ e) :
      regular (scriptPath name f) = false := by
    refine decide_eq_false ?_
    rintro (heq | heq)
    · exact hf (scriptPath_injective heq).2
    · exact hf (scriptPath_injective heq).2
  have hresolveA : resolvePath regular a maxPathLen = .ok (scriptPath n.name e) :=
    resolvePath_found hn hnext hlen (decide_eq_true (.inl rfl)) (hothers n.name)
  have hresolveB : resolvePath regular b maxPathLen = .ok (scriptPath m.name e) :=
    resolvePath_found hm hmext hmlen (decide_eq_true (.inr rfl)) (hothers m.name)
  refine ⟨regular, fun hseparate => ?_⟩
  refine hseparate _ _ _ _ hresolveA hresolveB (fun heq => hne (scriptPath_injective heq).1) _ _ _ _
    (buildLogPath_scriptPath hlen) (buildLogPath_scriptPath hmlen) ?_
  rw [hsame _ _ (logPath_ascii _ _) (logPath_ascii _ _)]
  exact upper_logPath_iff.mpr ⟨hstem, rfl⟩

theorem separate {sameFile : Bytes → Bytes → Prop}
    (hsame : ∀ p q, (∀ ch ∈ p, ch < 128) → (∀ ch ∈ q, ch < 128) →
      (sameFile p q ↔ p.map asciiUpper = q.map asciiUpper)) {a b : Bytes}
    (h : ¬ DifferInCase a b) (regular : Bytes → Bool) : Separate sameFile regular a b := by
  intro sizeA sizeB p q hp hq hne logSizeA logSizeB logA logB hlogA hlogB hfile
  obtain ⟨n, e, hn, rfl, hnext, hnlen, -⟩ := resolvePath_ok hp
  obtain ⟨m, f, hm, rfl, hmext, hmlen, -⟩ := resolvePath_ok hq
  rw [buildLogPath_ok hlogA, buildLogPath_ok hlogB,
    hsame _ _ (logPath_ascii _ _) (logPath_ascii _ _), upper_logPath_iff] at hfile
  obtain ⟨hstem, rfl⟩ := hfile
  have hnames : n.name ≠ m.name := fun heq => hne (by rw [heq])
  refine h ⟨n, m, hn, hm, hnames, hstem, ?_, ?_⟩
  · by_cases hx : n.extension = none
    · exact .inl hx
    · by_cases hy : m.extension = none
      · exact .inr (.inl hy)
      · exact .inr (.inr ((hnext hx).symm.trans (hmext hy)))
  · cases hx : n.extension with
    | none =>
      have hlength := congrArg List.length hstem
      rw [List.length_map, List.length_map] at hlength
      rw [length_scriptPath] at hmlen ⊢
      rw [hlength]
      exact hmlen
    | some x =>
      rw [hx] at hnlen
      exact hnlen

/-- **Script names.** Whatever is given, what it resolves to, its directory and its log stay
right where they belong; and two inputs that resolve to different files have different logs,
whatever files there are, exactly when their names do not differ in case only. `sameFile` is
the file system of the logs, which does not tell the case of ASCII letters apart. -/
theorem names_confined_iff (sameFile : Bytes → Bytes → Prop)
    (hsame : ∀ p q, (∀ ch ∈ p, ch < 128) → (∀ ch ∈ q, ch < 128) →
      (sameFile p q ↔ p.map asciiUpper = q.map asciiUpper)) (a b : Bytes) :
    (∀ regular, Confined regular a ∧ Confined regular b ∧ Separate sameFile regular a b) ↔
      ¬ DifferInCase a b := by
  constructor
  · intro h hcase
    obtain ⟨regular, hregular⟩ := not_separate hsame hcase
    exact hregular (h regular).2.2
  · intro h regular
    exact ⟨confined regular a, confined regular b, separate hsame h regular⟩

/-- A file system that compares names in upper case. -/
def SameUpper (p q : Bytes) : Prop := p.map asciiUpper = q.map asciiUpper

/-- `hello` and `Hello` are two scripts. -/
def bothHellos (path : Bytes) : Bool :=
  path = ascii "/lfs/scripts/hello/hello.wasm" ∨ path = ascii "/lfs/scripts/Hello/Hello.wasm"

theorem names_confined_hello : Confined bothHellos (ascii "hello") ∧
    Confined bothHellos (ascii "coremark.wasm") ∧
    Separate SameUpper bothHellos (ascii "hello") (ascii "coremark.wasm") := by
  refine (names_confined_iff SameUpper (fun _ _ _ _ => Iff.rfl) _ _).mpr ?_ bothHellos
  rintro ⟨n, m, hn, hm, -, hstem, -⟩
  have hstems : ∀ r q : Except EspErr Parsed, r = .ok n → q = .ok m →
      r.map (fun n => n.name.stem.map asciiUpper) = q.map (fun m => m.name.stem.map asciiUpper) := by
    rintro r q rfl rfl
    exact congrArg Except.ok hstem
  exact absurd (hstems _ _ hn hm) (by decide +kernel)

theorem hello_shares_log : ¬ Separate SameUpper bothHellos (ascii "hello") (ascii "Hello") := by
  intro h
  exact h 256 256 (ascii "/lfs/scripts/hello/hello.wasm") (ascii "/lfs/scripts/Hello/Hello.wasm")
    (by decide +kernel) (by decide +kernel) (by decide +kernel) 256 256
    (ascii "/tmp/script-logs/hello.wasm.log") (ascii "/tmp/script-logs/Hello.wasm.log")
    (by decide +kernel) (by decide +kernel) (by unfold SameUpper; decide +kernel)

end Jukeboy.Services.ScriptNames
