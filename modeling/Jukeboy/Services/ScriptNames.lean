import Mathlib.Data.FinEnum
import Mathlib.Data.List.Basic
import Jukeboy.Base.EspErr

/-! # Script names

How the name a user gives becomes the path of a script, of its directory and of its log
file. The script root is on a file system that tells case apart, the log root on the RAM
disk, whose file system does not. -/
namespace Jukeboy.Services.ScriptNames

open Jukeboy.Base

abbrev Bytes := List UInt8

def ascii (s : String) : Bytes := s.toList.map fun c => UInt8.ofNat c.toNat

def slash : UInt8 := 47
def dot : UInt8 := 46
def backslash : UInt8 := 92

/-- `SCRIPT_LFS_ROOT_PATH`. -/
def rootPath : Bytes := ascii "/lfs/scripts"

/-- `SCRIPT_LOG_ROOT_PATH`. -/
def logRootPath : Bytes := ascii "/tmp/script-logs"

/-- `SCRIPT_SERVICE_MAX_PATH_LEN`. -/
def maxPathLen : Nat := 256

/-! ## Names -/

/-- `script_is_name_char`. -/
def isNameChar (ch : UInt8) : Bool :=
  (97 ≤ ch && ch ≤ 122) || (65 ≤ ch && ch ≤ 90) || (48 ≤ ch && ch ≤ 57) || ch == 95 || ch == 45

inductive Extension where
  | wasm
  | cwasm
  | aot
deriving DecidableEq, Repr

def Extension.bytes : Extension → Bytes
  | .wasm => ascii ".wasm"
  | .cwasm => ascii ".cwasm"
  | .aot => ascii ".aot"

/-- `script_is_supported_extension`, and which one it is. -/
def supportedExtension (e : Bytes) : Option Extension :=
  if e = Extension.wasm.bytes then some .wasm
  else if e = Extension.cwasm.bytes then some .cwasm
  else if e = Extension.aot.bytes then some .aot
  else none

/-- What an extension adds to a name. -/
def suffix (e : Option Extension) : Bytes := (e.map Extension.bytes).getD []

/-- A script name, without its extension. -/
structure ScriptName where
  stem : Bytes
  nonempty : stem ≠ []
  chars : ∀ ch ∈ stem, isNameChar ch = true
deriving DecidableEq

structure Parsed where
  name : ScriptName
  extension : Option Extension
deriving DecidableEq

/-- `strrchr`: where the last `ch` is. -/
def strrchr (ch : UInt8) : Bytes → Option Nat
  | [] => none
  | x :: rest =>
    match strrchr ch rest with
    | some i => some (i + 1)
    | none => if x = ch then some 0 else none

/-- The input before its last dot, and from it on. -/
def splitExtension (input : Bytes) : Bytes × Option Bytes :=
  match strrchr dot input with
  | some i => (input.take i, some (input.drop i))
  | none => (input, none)

/-- `script_parse_name`. -/
def parseName (input : Bytes) (size : Nat) : Except EspErr Parsed :=
  if input = [] ∨ size = 0 then .error .invalidArg
  else if input.head? = some slash ∨ slash ∈ input ∨ backslash ∈ input then .error .invalidArg
  else if input = [dot] ∨ input = [dot, dot] then .error .invalidArg
  else
    let (stem, extension) := splitExtension input
    if h : stem = [] ∨ size < stem.length + 1 then .error .invalidArg
    else if hchars : ∀ ch ∈ stem, isNameChar ch = true then
      let name : ScriptName := ⟨stem, fun hstem => h (.inl hstem), hchars⟩
      match extension with
      | none => .ok ⟨name, none⟩
      | some e =>
        match supportedExtension e with
        | none => .error .invalidArg
        | some e => .ok ⟨name, some e⟩
    else .error .invalidArg

/-! ## Paths -/

/-- `snprintf` into a buffer, and the check of what it returns. -/
def format (path : Bytes) (outSize : Nat) : Except EspErr Bytes :=
  if path.length = 0 ∨ outSize ≤ path.length then .error .invalidSize else .ok path

/-- `script_build_script_directory`. -/
def buildScriptDirectory (name : Bytes) (outSize : Nat) : Except EspErr Bytes := do
  let parsed ← parseName name maxPathLen
  format (rootPath ++ [slash] ++ parsed.name.stem) outSize

/-- The path of a script in its directory. -/
def scriptPath (name : ScriptName) (e : Option Extension) : Bytes :=
  rootPath ++ [slash] ++ name.stem ++ [slash] ++ name.stem ++ suffix e

/-- `script_build_resolve_base_path`. -/
def buildResolveBasePath (name : Bytes) (outSize : Nat) : Except EspErr (Bytes × Bool) := do
  let parsed ← parseName name maxPathLen
  let path ← format (scriptPath parsed.name parsed.extension) outSize
  pure (path, parsed.extension.isSome)

/-- `script_has_extension`. -/
def hasExtension (path : Bytes) : Bool :=
  match strrchr dot path, strrchr slash path with
  | some d, some s => s < d
  | some _, none => true
  | none, _ => false

/-- `script_copy_candidate`; `regular` is `script_is_regular_file`. -/
def copyCandidate (regular : Bytes → Bool) (candidate : Bytes) (outSize : Nat) : Option Bytes :=
  if regular candidate = true ∧ candidate.length + 1 ≤ outSize then some candidate else none

/-- One of the variants with an extension. -/
def tryVariant (regular : Bytes → Bool) (base : Bytes) (outSize : Nat) (e : Extension) :
    Option Bytes :=
  let candidate := base ++ e.bytes
  if 0 < candidate.length ∧ candidate.length < maxPathLen then
    copyCandidate regular candidate outSize
  else none

/-- `script_try_path_variants`, with AOT support. -/
def tryPathVariants (regular : Bytes → Bool) (base : Bytes) (outSize : Nat) : Option Bytes :=
  match copyCandidate regular base outSize with
  | some path => some path
  | none =>
    if hasExtension base then none
    else
      tryVariant regular base outSize .wasm <|> tryVariant regular base outSize .cwasm <|>
        tryVariant regular base outSize .aot

/-- `script_service_resolve_path`. -/
def resolvePath (regular : Bytes → Bool) (path : Bytes) (outSize : Nat) : Except EspErr Bytes := do
  if path = [] ∨ outSize = 0 then .error .invalidArg
  else
    let (candidate, hasExtension) ← buildResolveBasePath path maxPathLen
    let found := if hasExtension then copyCandidate regular candidate outSize
      else tryPathVariants regular candidate outSize
    match found with
    | some resolved => .ok resolved
    | none => .error .notFound

/-- `script_service_get_script_directory`. -/
def getScriptDirectory (name : Bytes) (outSize : Nat) : Except EspErr Bytes :=
  buildScriptDirectory name outSize

/-- The last component of a path. -/
def lastComponent (path : Bytes) : Bytes :=
  match strrchr slash path with
  | some i => path.drop (i + 1)
  | none => path

/-- `script_build_log_path_from_resolved_path`. -/
def buildLogPath (resolved : Bytes) (outSize : Nat) : Except EspErr Bytes :=
  if resolved = [] ∨ outSize = 0 then .error .invalidArg
  else if lastComponent resolved = [] then .error .invalidArg
  else format (logRootPath ++ [slash] ++ lastComponent resolved ++ ascii ".log") outSize

/-- `script_service_get_log_path`. -/
def getLogPath (regular : Bytes → Bool) (path : Bytes) (outSize : Nat) : Except EspErr Bytes := do
  if outSize = 0 then .error .invalidArg
  else
    let resolved ← resolvePath regular path maxPathLen
    buildLogPath resolved outSize

end Jukeboy.Services.ScriptNames
