import Jukeboy.Base.Handles
import Jukeboy.Services.ScriptArgv

/-! # What a run of a script holds

A run opens its log and its script, takes memory for both its arguments and the module,
and asks the WebAssembly runtime for a module, an instance of it, a vector of arguments
inside the instance, an environment to execute in, and a task that keeps the processor
free. Each of these calls may fail. Whatever fails, what was taken is given back. -/
namespace Jukeboy.Services.ScriptExecution

open Jukeboy.Base Jukeboy.Base.Calls
open Jukeboy.Services.ScriptNames Jukeboy.Services.ScriptArgv

/-! ## Handles -/

inductive Kind where
  | file
  | block
  | log
  | threadEnv
  | wasmModule
  | moduleInst
  | argv
  | execEnv
  | task
deriving DecidableEq, Repr

/-- Something the run has to give back; some rest on another. -/
inductive Handle where
  | alone (kind : Kind) (id : Nat)
  | resting (kind : Kind) (id : Nat) (parent : Handle)
deriving DecidableEq, Repr

def Handle.parent : Handle → Option Handle
  | .alone _ _ => none
  | .resting _ _ parent => some parent

/-- `wasm_exec_env_t`: the one an instance has of its own, or one that was created for it. -/
inductive ExecEnv where
  | singleton (inst : Handle)
  | created (env : Handle)
deriving DecidableEq, Repr

/-- What has to be there while the environment is used. -/
def ExecEnv.handle : ExecEnv → Handle
  | .singleton inst => inst
  | .created env => env

/-- `wasm_valkind_t`. -/
inductive ValKind where
  | i32
  | i64
  | f32
  | f64
  | reference
deriving DecidableEq, Repr

/-- The type of a function that a module exports. -/
structure Function where
  params : List ValKind
  results : List ValKind
deriving DecidableEq, Repr

/-! ## Calls -/

inductive Call where
  | openLog (path : Bytes)
  | closeLog (log : Handle)
  | trimLog (log : Handle)
  | fopen (path : Bytes)
  | fseek (file : Handle) (toEnd : Bool)
  | ftell (file : Handle)
  | fread (file buffer : Handle) (size : Nat)
  | fclose (file : Handle)
  | malloc (size : Nat)
  | free (block : Handle)
  | threadEnvInited
  | initThreadEnv
  | destroyThreadEnv (env : Handle)
  | load (buffer : Handle) (bytes : Bytes)
  | instantiate (wasmModule : Handle)
  | lookupFunction (inst : Handle) (name : Bytes)
  /-- `room` is the length of the array. -/
  | getParamTypes (inst : Handle) (function : Function) (room : Nat)
  | getResultTypes (inst : Handle) (function : Function) (room : Nat)
  | moduleMalloc (inst : Handle) (size : Nat)
  | moduleFree (argv : Handle)
  | getExecEnvSingleton (inst : Handle)
  | createExecEnv (inst : Handle)
  | destroyExecEnv (env : Handle)
  | createTask
  | deleteTask (task : Handle)
  /-- `args` are the 32-bit integers that are passed, `room` is how many results there is
  space for. -/
  | callWasm (env : ExecEnv) (function : Function) (args : List Int32) (room : Nat)
  | getException (inst : Handle)
  | deinstantiate (inst : Handle)
  | unload (wasmModule : Handle)

/-- What the calls return. What creates something returns a number for it; `callWasm` returns
the results that are 32-bit integers. -/
abbrev Ret : Call → Type
  | .openLog _ | .fopen _ | .malloc _ | .createExecEnv _ | .createTask => Option Nat
  | .closeLog _ | .fclose _ | .free _ | .destroyThreadEnv _ | .moduleFree _ | .destroyExecEnv _
  | .deleteTask _ | .deinstantiate _ | .unload _ => Unit
  | .trimLog _ => EspErr
  | .fseek _ _ | .threadEnvInited | .initThreadEnv | .getExecEnvSingleton _ => Bool
  | .ftell _ => Int
  | .fread _ _ _ => Bytes
  | .load _ _ | .instantiate _ => Except Bytes Nat
  | .lookupFunction _ _ => Option Function
  | .getParamTypes _ _ _ | .getResultTypes _ _ _ => List ValKind
  | .moduleMalloc _ _ => Allocation
  | .callWasm _ _ _ _ => Option (List Int32)
  | .getException _ => Option Bytes

abbrev Program := Prog Ret

abbrev perform (call : Call) : Program (Ret call) := Prog.perform call

/-- What each call needs, makes and frees. The module rests on the bytes it was loaded from,
the instance on the module, and on the instance what was made for it. -/
def usage : Usage Ret Handle where
  requires
    | .getParamTypes _ function room => function.params.length ≤ room
    | .getResultTypes _ function room => function.results.length ≤ room
    | .callWasm _ function args room =>
      function.params = args.map (fun _ => .i32) ∧ function.results.length ≤ room ∧
        ∀ kind ∈ function.results, kind = .i32
    | _ => True
  answers
    | .fread _ _ size, bytes => bytes.length ≤ size
    | .getParamTypes _ function _, kinds => kinds = function.params
    | .getResultTypes _ function _, kinds => kinds = function.results
    | .moduleMalloc _ _, block => block.native = true ↔ block.offset ≠ 0
    | .callWasm _ function _ _, (results : Option (List Int32)) =>
      ∀ values ∈ results, values.length = function.results.length
    | _, _ => True
  uses
    | .trimLog log => [log]
    | .fseek file _ | .ftell file => [file]
    | .fread file buffer _ => [file, buffer]
    | .load buffer _ => [buffer]
    | .instantiate wasmModule => [wasmModule]
    | .lookupFunction inst _ | .getParamTypes inst _ _ | .getResultTypes inst _ _
    | .moduleMalloc inst _ | .getExecEnvSingleton inst | .createExecEnv inst
    | .getException inst => [inst]
    | .callWasm env _ _ _ => [env.handle]
    | _ => []
  makes
    | .openLog _, id => id.map (.alone .log)
    | .fopen _, id => id.map (.alone .file)
    | .malloc _, id => id.map (.alone .block)
    | .initThreadEnv, (done : Bool) => if done then some (.alone .threadEnv 0) else none
    | .load buffer _, id => id.toOption.map fun id => .resting .wasmModule id buffer
    | .instantiate wasmModule, id => id.toOption.map fun id => .resting .moduleInst id wasmModule
    | .moduleMalloc inst _, block =>
      if block.offset ≠ 0 then some (.resting .argv block.offset inst) else none
    | .createExecEnv inst, id => id.map fun id => .resting .execEnv id inst
    | .createTask, id => id.map (.alone .task)
    | _, _ => none
  frees
    | .closeLog h | .fclose h | .free h | .destroyThreadEnv h | .moduleFree h | .destroyExecEnv h
    | .deleteTask h | .deinstantiate h | .unload h => some h
    | _ => none
  parent := Handle.parent

@[simp] theorem usage_parent (handle : Handle) : usage.parent handle = handle.parent := rfl

@[simp] theorem parent_alone (kind : Kind) (id : Nat) : (Handle.alone kind id).parent = none := rfl

@[simp] theorem parent_resting (kind : Kind) (id : Nat) (parent : Handle) :
    (Handle.resting kind id parent).parent = some parent := rfl

/-! ## The result -/

/-- The part of `script_service_run_result_t` that these functions write. -/
structure Result where
  message : Bytes
  scriptSizeBytes : Nat
  exitCode : Int32
deriving DecidableEq, Repr

/-- `script_init_result`. -/
def Result.init : Result := ⟨[], 0, -1⟩

/-- `SCRIPT_SERVICE_MAX_MESSAGE_LEN`. -/
def maxMessageLen : Nat := 160

/-- `script_set_result_message`, the text being formatted. -/
def Result.setMessage (result : Result) (text : Bytes) : Result :=
  { result with message := text.take (maxMessageLen - 1) }

/-- A text the runtime left, or another one if it left none. -/
def textOr (text default : Bytes) : Bytes := if text = [] then default else text

/-! ## `script_load_file` -/

/-- `SCRIPT_SERVICE_MAX_SCRIPT_SIZE`. -/
def maxScriptSize : Nat := 512 * 1024

/-- `script_load_file`: the buffer and what is in it. -/
def loadFile (path : Bytes) (result : Result) : Program (Option (Handle × Bytes) × Result) := do
  let answer ← perform (.fopen path)
  match answer with
  | none => return (none, result.setMessage (ascii "cannot open " ++ path))
  | some id =>
    let file := Handle.alone .file id
    let atEnd ← perform (.fseek file true)
    if atEnd = false then
      let _ ← perform (.fclose file)
      return (none, result.setMessage (ascii "cannot seek " ++ path))
    else
      let fileSize ← perform (.ftell file)
      if fileSize ≤ 0 ∨ fileSize > 2 ^ 32 - 1 then
        let _ ← perform (.fclose file)
        return (none, result.setMessage (ascii "invalid script size for " ++ path))
      else if fileSize > maxScriptSize then
        let _ ← perform (.fclose file)
        return (none, result.setMessage (ascii "script exceeds max size (524288 bytes)"))
      else
        let rewound ← perform (.fseek file false)
        if rewound = false then
          let _ ← perform (.fclose file)
          return (none, result.setMessage (ascii "cannot rewind " ++ path))
        else
          let answer ← perform (.malloc fileSize.toNat)
          match answer with
          | none =>
            let _ ← perform (.fclose file)
            return (none, result.setMessage (ascii "out of memory loading " ++ path))
          | some id =>
            let buffer := Handle.alone .block id
            let bytes ← perform (.fread file buffer fileSize.toNat)
            if bytes.length ≠ fileSize.toNat then
              let _ ← perform (.fclose file)
              let _ ← perform (.free buffer)
              return (none, result.setMessage (ascii "failed to read " ++ path))
            else
              let _ ← perform (.fclose file)
              return (some (buffer, bytes), { result with scriptSizeBytes := fileSize.toNat })

/-! ## `script_execute_builtin_module` -/

/-- `if (handle) ...`. -/
def ifHeld (handle : Option Handle) (act : Handle → Program Unit) : Program Unit :=
  match handle with
  | some handle => act handle
  | none => pure ()

/-- What stands behind `cleanup` in `script_execute_builtin_module`. -/
def cleanup (task argv ownEnv : Option Handle) : Program Unit := do
  ifHeld task fun task => perform (.deleteTask task)
  ifHeld argv fun argv => perform (.moduleFree argv)
  ifHeld ownEnv fun env => perform (.destroyExecEnv env)

/-- The check of the parameters: there are none, or two 32-bit integers. -/
def checkParams (inst : Handle) (function : Function) : Program Bool := do
  if function.params.length > 0 then
    let kinds ← perform (.getParamTypes inst function 2)
    return kinds[0]? = some .i32 ∧ kinds[1]? = some .i32
  else
    return true

def checkResults (inst : Handle) (function : Function) : Program Bool := do
  if function.results.length > 0 then
    let kinds ← perform (.getResultTypes inst function 1)
    return kinds[0]? = some .i32
  else
    return true

/-- The part with the environment: the task, and the call of the entry function. -/
def callEntry (inst : Handle) (function : Function) (env : ExecEnv) (argv ownEnv : Option Handle)
    (args : List Int32) (result : Result) : Program (EspErr × Result) := do
  let answer ← perform .createTask
  match answer with
  | none =>
    cleanup none argv ownEnv
    return (.noMem, result.setMessage (ascii "failed to create script yield task"))
  | some id =>
    let task := Handle.alone .task id
    let room := if function.results.length > 0 then 1 else 0
    let answer ← perform (.callWasm env function args room)
    match answer with
    | none =>
      let exception ← perform (.getException inst)
      cleanup (some task) argv ownEnv
      return (.fail, result.setMessage
        (textOr (exception.getD []) (ascii "builtin script execution failed")))
    | some values =>
      cleanup (some task) argv ownEnv
      return (.ok, { result with
        exitCode := if function.results.length > 0 then values.getD 0 0 else 0 })

/-- The environment: the instance's own, or else one that is created. -/
def withExecEnv (inst : Handle) (function : Function) (argv : Option Handle) (args : List Int32)
    (result : Result) : Program (EspErr × Result) := do
  let singleton ← perform (.getExecEnvSingleton inst)
  if singleton = true then
    callEntry inst function (.singleton inst) argv none args result
  else
    let answer ← perform (.createExecEnv inst)
    match answer with
    | none =>
      cleanup none argv none
      return (.noMem, result.setMessage (ascii "failed to create builtin execution environment"))
    | some id =>
      let env := Handle.resting .execEnv id inst
      callEntry inst function (.created env) argv (some env) args result

/-- `script_execute_builtin_module` once it has found its entry function. -/
def executeEntry (argv : List Bytes) (inst : Handle) (name : Bytes) (function : Function)
    (result : Result) : Program (EspErr × Result) := do
  if function.params.length ≠ 0 ∧ function.params.length ≠ 2 then
    return (.notSupported, result.setMessage
      (ascii "builtin entry " ++ name ++ ascii " must use () or (int, char **)"))
  else
    let paramsOk ← checkParams inst function
    if paramsOk = false then
      return (.notSupported, result.setMessage
        (ascii "builtin entry " ++ name ++ ascii " arguments must be 32-bit integers"))
    else if function.results.length > 1 then
      return (.notSupported, result.setMessage
        (ascii "builtin entry " ++ name ++ ascii " must return at most one result"))
    else
      let resultsOk ← checkResults inst function
      if resultsOk = false then
        return (.notSupported, result.setMessage
          (ascii "builtin entry " ++ name ++ ascii " must return a 32-bit integer"))
      else if function.params.length = 2 then
        let block ← perform (.moduleMalloc inst (totalSize argv))
        match prepareBuiltinArgv (fun _ => block) argv with
        | .error (err, text) => return (err, result.setMessage (ascii text))
        | .ok (offset, _) =>
          withExecEnv inst function (some (.resting .argv offset inst))
            [.ofNat argv.length, .ofNat offset] result
      else
        withExecEnv inst function none [] result

/-- `script_execute_builtin_module`. -/
def executeBuiltinModule (argv : List Bytes) (inst : Handle) (result : Result) :
    Program (EspErr × Result) := do
  let answer ← perform (.lookupFunction inst (ascii "main"))
  match answer with
  | some function => executeEntry argv inst (ascii "main") function result
  | none =>
    let answer ← perform (.lookupFunction inst (ascii "__main_argc_argv"))
    match answer with
    | some function => executeEntry argv inst (ascii "__main_argc_argv") function result
    | none =>
      return (.notFound, result.setMessage
        (ascii "builtin script does not export main or __main_argc_argv"))

/-! ## `script_execute_module` -/

/-- `script_execute_module` with its script in the buffer. -/
def executeBuffer (argv : List Bytes) (buffer : Handle) (bytes : Bytes) (result : Result) :
    Program (EspErr × Result) := do
  let answer ← perform (.load buffer bytes)
  match answer with
  | .error text =>
    let _ ← perform (.free buffer)
    return (.fail, result.setMessage (textOr text (ascii "wasm load failed")))
  | .ok id =>
    let wasmModule := Handle.resting .wasmModule id buffer
    let answer ← perform (.instantiate wasmModule)
    match answer with
    | .error text =>
      let _ ← perform (.unload wasmModule)
      let _ ← perform (.free buffer)
      return (.fail, result.setMessage (textOr text (ascii "wasm instantiate failed")))
    | .ok id =>
      let inst := Handle.resting .moduleInst id wasmModule
      let (err, result) ← executeBuiltinModule argv inst result
      let _ ← perform (.deinstantiate inst)
      let _ ← perform (.unload wasmModule)
      let _ ← perform (.free buffer)
      if err ≠ .ok then
        return (err, result)
      else if result.exitCode = 0 then
        return (err, result.setMessage (ascii "completed successfully"))
      else
        return (err, result.setMessage
          (ascii ("completed with exit code " ++ toString result.exitCode.toInt)))

/-- `script_execute_module`; `script` is `context->script_buffer`. -/
def executeModule (resolvedPath : Bytes) (argv : List Bytes) (script : Option (Handle × Bytes))
    (result : Result) : Program (EspErr × Result) := do
  match script with
  | some (buffer, bytes) => executeBuffer argv buffer bytes result
  | none =>
    match ← loadFile resolvedPath result with
    | (none, result) => return (.notFound, result)
    | (some (buffer, bytes), result) => executeBuffer argv buffer bytes result

/-! ## A run -/

/-- `script_runner_task`. -/
def runnerTask (resolvedPath : Bytes) (argv : List Bytes) (log : Handle)
    (script : Handle × Bytes) (result : Result) : Program ((EspErr × Result) × Bool) := do
  let inited ← perform .threadEnvInited
  if inited = true then
    let ran ← executeModule resolvedPath argv (some script) result
    let _ ← perform (.trimLog log)
    return (ran, true)
  else
    let initialized ← perform .initThreadEnv
    if initialized = true then
      let ran ← executeModule resolvedPath argv (some script) result
      let _ ← perform (.trimLog log)
      let _ ← perform (.destroyThreadEnv (.alone .threadEnv 0))
      return (ran, true)
    else
      let _ ← perform (.trimLog log)
      return ((.fail, result.setMessage
        (ascii "failed to initialize WAMR thread environment")), false)

/-- `script_release_context_resources`. -/
def releaseContextResources (log script argv : Option Handle) : Program Unit := do
  ifHeld log fun log => perform (.closeLog log)
  ifHeld script fun buffer => perform (.free buffer)
  ifHeld argv fun argv => perform (.free argv)

/-- What `script_queue_context` says when it refuses; the path is that of the active run. -/
def refusal (active : Bytes) : Bytes :=
  if active ≠ [] then ascii "script service is already running " ++ active
  else ascii "script service is already busy"

/-- `script_service_run` from its log file on: the rest of `script_prepare_context`,
`script_queue_context`, which refuses when there is a `refusedFor`, the task and the release of
the context. -/
def serviceRun (resolvedPath logPath : Bytes) (argc : Int) (argv : Option (Nat → Option Bytes))
    (refusedFor : Option Bytes) : Program (EspErr × Result) := do
  let result := Result.init
  let answer ← perform (.openLog logPath)
  match answer with
  | none => return (.fail, result.setMessage (ascii "failed to open " ++ logPath))
  | some id =>
    let log := Handle.alone .log id
    let noArgv := result.setMessage (ascii "out of memory copying arguments")
    match duplicateArgv (fun _ => true) (some resolvedPath) argc argv with
    | .error _ =>
      releaseContextResources (some log) none none
      return (.noMem, noArgv)
    | .ok copy =>
      let answer ← perform (.malloc (4 * (copy.argc + 1) + copy.storage.length))
      match answer with
      | none =>
        releaseContextResources (some log) none none
        return (.noMem, noArgv)
      | some id =>
        let argvBlock := Handle.alone .block id
        match ← loadFile resolvedPath result with
        | (none, result) =>
          releaseContextResources (some log) none (some argvBlock)
          return (.fail, result)
        | (some (buffer, bytes), result) =>
          match refusedFor with
          | some active =>
            releaseContextResources (some log) (some buffer) (some argvBlock)
            return (.invalidState, result.setMessage (refusal active))
          | none =>
            let (ran, executed) ← runnerTask resolvedPath copy.strings log (buffer, bytes) result
            releaseContextResources (some log) (if executed then none else some buffer)
              (some argvBlock)
            return ran

/-! ## What is seen -/

/-- What the calls of the entry function answer. -/
def entered : (call : Call) → Ret call → List (Option (List Int32))
  | .callWasm _ _ _ _, results => [results]
  | _, _ => []

abbrev Held : Type := List Handle × List (Option (List Int32))

/-- The program keeps to what its calls need, and ends with `Q`. -/
abbrev Keeps {α : Type} (Q : Held → α → Prop) (held : List Handle)
    (so : List (Option (List Int32))) (program : Program α) : Prop :=
  program.Obeys (usage.protocol.observe entered) Q (held, so)

/-- How an execution ends: with what was held before it, and without an error if and only if
the entry function was called and returned. It is called at most once. -/
inductive Ended (so : List (Option (List Int32))) :
    List (Option (List Int32)) → EspErr × Result → Prop where
  | returned {values : List Int32} {result : Result} (hcode : result.exitCode = values.headD 0) :
      Ended so (so ++ [some values]) (.ok, result)
  | trapped {err : EspErr} {result : Result} (herr : err ≠ .ok) :
      Ended so (so ++ [none]) (err, result)
  | failed {err : EspErr} {result : Result} (herr : err ≠ .ok) : Ended so so (err, result)

/-- The handles of the kinds that are made for an instance. -/
structure ForInstance (inst : Handle) (held : List Handle) (argv ownEnv : Option Handle) :
    Prop where
  kind : ∃ id parent, inst = .resting .moduleInst id parent
  mem : inst ∈ held
  ofArgv : ∀ a ∈ argv, (∃ offset, a = .resting .argv offset inst) ∧ usage.Fresh held a
  ofEnv : ∀ e ∈ ownEnv, (∃ id, e = .resting .execEnv id inst) ∧ usage.Fresh held e

variable {held : List Handle} {so : List (Option (List Int32))}

/-! ## Loading -/

inductive Loaded (held : List Handle) (so : List (Option (List Int32))) :
    Held → Option (Handle × Bytes) × Result → Prop where
  | failed (result : Result) : Loaded held so (held, so) (none, result)
  | loaded {id : Nat} (bytes : Bytes) (result : Result)
      (hfresh : usage.Fresh held (.alone .block id)) :
      Loaded held so (.alone .block id :: held, so) (some (.alone .block id, bytes), result)

/-- The file is closed, and the rest goes on without it. -/
theorem fclose_keeps {α : Type} {Q : Held → α → Prop} {id : Nat} {newer : List Handle}
    {f : Unit → Program α} (hnewer : usage.Fresh newer (.alone .file id))
    (hfresh : usage.Fresh held (.alone .file id)) (hf : Keeps Q (newer ++ held) so (f ())) :
    Keeps Q (newer ++ .alone .file id :: held) so (perform (.fclose (.alone .file id)) >>= f) :=
  Usage.obeys_free newer trivial (fun _ hx => absurd hx List.not_mem_nil) rfl (fun _ => rfl)
    (fun _ => rfl) hnewer (by simp) hfresh fun _ => hf

theorem loadFile_keeps (path : Bytes) (result : Result) :
    Keeps (Loaded held so) held so (loadFile path result) := by
  unfold loadFile
  refine Usage.obeys_make trivial (fun _ hx => absurd hx List.not_mem_nil) rfl (fun _ => rfl)
    (fun answer _ hmakes => ?_) fun answer file _ hmakes hfile => ?_
  · cases answer with
    | none => exact .failed _
    | some id => simp [usage] at hmakes
  cases answer with
  | none => simp [usage] at hmakes
  | some id =>
    obtain rfl : Handle.alone .file id = file := by simpa [usage] using hmakes
    have hnil : usage.Fresh [] (.alone .file id) := Usage.fresh_nil _ _
    refine Usage.obeys_call trivial (by simp [usage]) rfl (fun _ => rfl) fun atEnd _ => ?_
    simp only [entered, List.append_nil]
    split
    · exact fclose_keeps hnil hfile (.failed _)
    refine Usage.obeys_call trivial (by simp [usage]) rfl (fun _ => rfl) fun fileSize _ => ?_
    simp only [entered, List.append_nil]
    split
    · exact fclose_keeps hnil hfile (.failed _)
    split
    · exact fclose_keeps hnil hfile (.failed _)
    refine Usage.obeys_call trivial (by simp [usage]) rfl (fun _ => rfl) fun rewound _ => ?_
    simp only [entered, List.append_nil]
    split
    · exact fclose_keeps hnil hfile (.failed _)
    refine Usage.obeys_make trivial (fun _ hx => absurd hx List.not_mem_nil) rfl (fun _ => rfl)
      (fun answer _ hmakes => ?_) fun answer buffer _ hmakes hbuffer => ?_
    · cases answer with
      | none => exact fclose_keeps hnil hfile (.failed _)
      | some id => simp [usage] at hmakes
    cases answer with
    | none => simp [usage] at hmakes
    | some block =>
      obtain rfl : Handle.alone .block block = buffer := by simpa [usage] using hmakes
      have hnewer : usage.Fresh [.alone .block block] (.alone .file id) := by
        simp [Usage.fresh_cons, Usage.fresh_nil]
      have hfresh : usage.Fresh held (.alone .block block) := (Usage.fresh_cons.mp hbuffer).2
      refine Usage.obeys_call trivial (by simp [usage]) rfl (fun _ => rfl) fun bytes _ => ?_
      simp only [entered, List.append_nil]
      split
      · refine fclose_keeps hnewer hfile ?_
        exact Usage.obeys_free [] trivial (by simp [usage]) rfl (fun _ => rfl) (fun _ => rfl)
          (Usage.fresh_nil _ _) (by simp) hfresh fun _ => .failed _
      · exact fclose_keeps hnewer hfile (.loaded _ _ hfresh)

/-! ## Cleaning up -/

theorem ifHeld_keeps (newer : List Handle) {handle : Option Handle} {act : Handle → Program Unit}
    (hact : ∀ h ∈ handle,
      Keeps (fun t _ => t = (newer ++ held, so)) (newer ++ h :: held) so (act h)) :
    Keeps (fun t _ => t = (newer ++ held, so)) (newer ++ (handle.toList ++ held)) so
      (ifHeld handle act) := by
  cases handle with
  | none => rfl
  | some h => exact hact h rfl

theorem cleanup_keeps {inst : Handle} {task argv ownEnv : Option Handle}
    (h : ForInstance inst held argv ownEnv)
    (htask : ∀ t ∈ task, (∃ id, t = .alone .task id) ∧ usage.Fresh held t) :
    Keeps (fun t _ => t = (held, so)) (task.toList ++ (ownEnv.toList ++ (argv.toList ++ held))) so
      (cleanup task argv ownEnv) := by
  obtain ⟨n, parent, rfl⟩ := h.kind
  refine (ifHeld_keeps [] fun t ht => ?_).bind fun s _ hs => ?_
  · obtain ⟨⟨id, rfl⟩, hfresh⟩ := htask t ht
    have hothers : usage.Fresh (ownEnv.toList ++ (argv.toList ++ held)) (.alone .task id) := by
      intro x hx
      simp only [List.mem_append, Option.mem_toList] at hx
      rcases hx with hx | hx | hx
      · obtain ⟨⟨_, rfl⟩, -⟩ := h.ofEnv x hx
        simp
      · obtain ⟨⟨_, rfl⟩, -⟩ := h.ofArgv x hx
        simp
      · exact hfresh x hx
    exact Usage.obeys_free (f := pure) [] trivial (by simp [usage]) rfl (fun _ => rfl)
      (fun _ => rfl) (Usage.fresh_nil _ _) (by simp) hothers fun _ => rfl
  subst hs
  refine (ifHeld_keeps ownEnv.toList fun a ha => ?_).bind fun s _ hs => ?_
  · obtain ⟨⟨offset, rfl⟩, hfresh⟩ := h.ofArgv a ha
    have hnewer : usage.Fresh ownEnv.toList
        (.resting .argv offset (.resting .moduleInst n parent)) := by
      intro x hx
      obtain ⟨⟨_, rfl⟩, -⟩ := h.ofEnv x (Option.mem_toList.mp hx)
      simp
    exact Usage.obeys_free (f := pure) ownEnv.toList trivial (by simp [usage]) rfl (fun _ => rfl)
      (fun _ => rfl) hnewer (by simp) hfresh fun _ => rfl
  subst hs
  refine ifHeld_keeps [] fun e he => ?_
  obtain ⟨⟨id, rfl⟩, hfresh⟩ := h.ofEnv e he
  exact Usage.obeys_free (f := pure) [] trivial (by simp [usage]) rfl (fun _ => rfl)
    (fun _ => rfl) (Usage.fresh_nil _ _) (by simp) hfresh fun _ => rfl

/-! ## The entry function -/

/-- What an execution is to do: give back what it took, and end in one of three ways. -/
abbrev Executes (before held : List Handle) (so : List (Option (List Int32)))
    (program : Program (EspErr × Result)) : Prop :=
  Keeps (fun t r => t.1 = before ∧ Ended so t.2 r) held so program

/-- Cleaning up does not change how an execution ends. -/
theorem cleanup_executes {inst : Handle} {task argv ownEnv : Option Handle}
    {seen : List (Option (List Int32))} {r : EspErr × Result}
    (h : ForInstance inst held argv ownEnv)
    (htask : ∀ t ∈ task, (∃ id, t = .alone .task id) ∧ usage.Fresh held t)
    (hended : Ended so seen r) :
    Keeps (fun t r => t.1 = held ∧ Ended so t.2 r)
      (task.toList ++ (ownEnv.toList ++ (argv.toList ++ held))) seen
      (cleanup task argv ownEnv >>= fun _ => pure r) := by
  refine (cleanup_keeps h htask).bind fun t _ ht => ?_
  subst ht
  exact ⟨rfl, hended⟩

theorem cleanup_fails {inst : Handle} {argv ownEnv : Option Handle} {err : EspErr} {result : Result}
    (h : ForInstance inst held argv ownEnv) (herr : err ≠ .ok) :
    Executes held (ownEnv.toList ++ (argv.toList ++ held)) so
      (cleanup none argv ownEnv >>= fun _ => pure (err, result)) := by
  have hnone : ∀ t ∈ (none : Option Handle),
      (∃ id, t = .alone .task id) ∧ usage.Fresh held t :=
    fun t ht => absurd ht (Option.not_mem_none t)
  exact cleanup_executes h hnone (.failed herr)

theorem callEntry_executes {inst : Handle} {function : Function} {env : ExecEnv}
    {argv ownEnv : Option Handle} {args : List Int32} (result : Result)
    (h : ForInstance inst held argv ownEnv)
    (henv : env.handle ∈ ownEnv.toList ++ (argv.toList ++ held))
    (hparams : function.params = args.map fun _ => .i32) (hlength : function.results.length ≤ 1)
    (hkinds : ∀ kind ∈ function.results, kind = .i32) :
    Executes held (ownEnv.toList ++ (argv.toList ++ held)) so
      (callEntry inst function env argv ownEnv args result) := by
  unfold callEntry
  refine Usage.obeys_make trivial (fun _ hx => absurd hx List.not_mem_nil) rfl (fun _ => rfl)
    (fun answer _ hmakes => ?_) fun answer task _ hmakes hfresh => ?_
  · cases answer with
    | none => exact cleanup_fails h (by decide)
    | some id => simp [usage] at hmakes
  cases answer with
  | none => simp [usage] at hmakes
  | some id =>
    obtain rfl : Handle.alone .task id = task := by simpa [usage] using hmakes
    have htask : ∀ t ∈ some (Handle.alone .task id),
        (∃ id, t = .alone .task id) ∧ usage.Fresh held t := by
      intro t ht
      obtain rfl := Option.some.inj ht
      exact ⟨⟨id, rfl⟩, fun x hx => hfresh x (List.mem_append_right _ (List.mem_append_right _ hx))⟩
    have hinst : inst ∈ Handle.alone .task id :: (ownEnv.toList ++ (argv.toList ++ held)) :=
      List.mem_cons_of_mem _ (List.mem_append_right _ (List.mem_append_right _ h.mem))
    have hroom : function.results.length ≤ if function.results.length > 0 then 1 else 0 := by
      split <;> omega
    refine Usage.obeys_call ⟨hparams, hroom, hkinds⟩ ?_ rfl (fun _ => rfl)
      fun results hanswers => ?_
    · exact fun x hx => List.mem_cons_of_mem _ (List.mem_singleton.mp hx ▸ henv)
    cases results with
    | none =>
      refine Usage.obeys_call trivial (fun x hx => List.mem_singleton.mp hx ▸ hinst) rfl
        (fun _ => rfl) fun exception _ => ?_
      simp only [entered, List.append_nil]
      exact cleanup_executes h htask (.trapped (by decide))
    | some values =>
      refine cleanup_executes h htask (.returned ?_)
      have hvalues : values.length = function.results.length := hanswers values rfl
      cases values with
      | nil => split <;> rfl
      | cons value values =>
        rw [if_pos (by rw [← hvalues]; exact Nat.succ_pos _)]
        rfl

theorem withExecEnv_executes {inst : Handle} {function : Function} {argv : Option Handle}
    {args : List Int32} (result : Result) (h : ForInstance inst held argv none)
    (hparams : function.params = args.map fun _ => .i32) (hlength : function.results.length ≤ 1)
    (hkinds : ∀ kind ∈ function.results, kind = .i32) :
    Executes held (argv.toList ++ held) so (withExecEnv inst function argv args result) := by
  unfold withExecEnv
  have hinst : inst ∈ argv.toList ++ held := List.mem_append_right _ h.mem
  refine Usage.obeys_call trivial (fun x hx => List.mem_singleton.mp hx ▸ hinst) rfl (fun _ => rfl)
    fun singleton _ => ?_
  simp only [entered, List.append_nil]
  split
  · exact callEntry_executes result h hinst hparams hlength hkinds
  refine Usage.obeys_make trivial (fun x hx => List.mem_singleton.mp hx ▸ hinst) rfl (fun _ => rfl)
    (fun answer _ hmakes => ?_) fun answer env _ hmakes hfresh => ?_
  · cases answer with
    | none => exact cleanup_fails h (by decide)
    | some id => simp [usage] at hmakes
  cases answer with
  | none => simp [usage] at hmakes
  | some id =>
    obtain rfl : Handle.resting .execEnv id inst = env := by simpa [usage] using hmakes
    have howns : ForInstance inst held argv (some (.resting .execEnv id inst)) := by
      refine { h with ofEnv := fun e he => ?_ }
      obtain rfl := Option.some.inj he
      exact ⟨⟨id, rfl⟩, fun x hx => hfresh x (List.mem_append_right _ hx)⟩
    exact callEntry_executes result howns List.mem_cons_self hparams hlength hkinds

/-- A check that passes has looked at a type it had room for. -/
theorem checkParams_keeps {inst : Handle} {function : Function} (hinst : inst ∈ held)
    (hparams : ¬ (function.params.length ≠ 0 ∧ function.params.length ≠ 2)) :
    Keeps (fun t ok => t = (held, so) ∧
        (ok = true → function.params = [] ∨ function.params = [.i32, .i32])) held so
      (checkParams inst function) := by
  unfold checkParams
  split
  · next hpos =>
    have htwo : function.params.length = 2 := by omega
    refine Usage.obeys_call htwo.le (fun x hx => List.mem_singleton.mp hx ▸ hinst) rfl
      (fun _ => rfl) fun kinds hkinds => ?_
    simp only [entered, List.append_nil]
    refine ⟨rfl, fun hok => .inr ?_⟩
    obtain ⟨first, second, hpair⟩ := List.length_eq_two.mp htwo
    obtain rfl : kinds = function.params := hkinds
    rw [hpair] at hok ⊢
    simpa using hok
  · next hzero =>
    exact ⟨rfl, fun _ => .inl (List.length_eq_zero_iff.mp (Nat.eq_zero_of_not_pos hzero))⟩

theorem checkResults_keeps {inst : Handle} {function : Function} (hinst : inst ∈ held)
    (hlength : function.results.length ≤ 1) :
    Keeps (fun t ok => t = (held, so) ∧ (ok = true → ∀ kind ∈ function.results, kind = .i32)) held
      so (checkResults inst function) := by
  unfold checkResults
  split
  · next hpos =>
    refine Usage.obeys_call hlength (fun x hx => List.mem_singleton.mp hx ▸ hinst) rfl
      (fun _ => rfl) fun kinds hkinds => ?_
    simp only [entered, List.append_nil]
    refine ⟨rfl, fun hok => ?_⟩
    obtain ⟨kind, hkind⟩ := List.length_eq_one_iff.mp (Nat.le_antisymm hlength hpos)
    obtain rfl : kinds = function.results := hkinds
    rw [hkind] at hok ⊢
    simpa using hok
  · next hzero =>
    have hnil := List.length_eq_zero_iff.mp (Nat.eq_zero_of_not_pos hzero)
    refine ⟨rfl, fun _ => ?_⟩
    rw [hnil]
    exact List.forall_mem_nil _

theorem executeEntry_executes {inst : Handle} (argv : List Bytes) (name : Bytes)
    (function : Function) (result : Result)
    (hkind : ∃ id parent, inst = .resting .moduleInst id parent) (hinst : inst ∈ held) :
    Executes held held so (executeEntry argv inst name function result) := by
  have hno : ForInstance inst held none none :=
    ⟨hkind, hinst, fun a ha => absurd ha (Option.not_mem_none a),
      fun e he => absurd he (Option.not_mem_none e)⟩
  unfold executeEntry
  split
  · exact ⟨rfl, .failed (by decide)⟩
  next hcount =>
  refine (checkParams_keeps hinst hcount).bind fun t ok ht => ?_
  obtain ⟨rfl, hparams⟩ := ht
  split
  · exact ⟨rfl, .failed (by decide)⟩
  next hok =>
  have hparams := hparams (Bool.eq_true_of_not_eq_false hok)
  split
  · exact ⟨rfl, .failed (by decide)⟩
  next hlength =>
  have hlength := Nat.le_of_not_lt hlength
  refine (checkResults_keeps hinst hlength).bind fun t ok ht => ?_
  obtain ⟨rfl, hkinds⟩ := ht
  split
  · exact ⟨rfl, .failed (by decide)⟩
  next hok =>
  have hkinds := hkinds (Bool.eq_true_of_not_eq_false hok)
  split
  · next htwo =>
    have hpair : function.params = [.i32, .i32] := by
      rcases hparams with hnil | hpair
      · rw [hnil] at htwo
        cases htwo
      · exact hpair
    have huses : ∀ x ∈ usage.uses (.moduleMalloc inst (totalSize argv)), x ∈ held :=
      fun x hx => List.mem_singleton.mp hx ▸ hinst
    -- the runtime gives no native address without an offset, nor the other way round
    refine Usage.obeys_make trivial huses rfl (fun _ => rfl) (fun block hanswers hmakes => ?_)
      fun block argvBlock hanswers hmakes hfresh => ?_
    · have hzero : block.offset = 0 := by
        by_contra hne
        simp [usage, hne] at hmakes
      rw [prepareBuiltinArgv, if_pos (.inl hzero)]
      exact ⟨rfl, .failed (by decide)⟩
    · have hne : block.offset ≠ 0 := by
        intro hzero
        simp [usage, hzero] at hmakes
      have hnative : block.native = true := hanswers.mpr hne
      obtain rfl : Handle.resting .argv block.offset inst = argvBlock := by
        simpa [usage, hne] using hmakes
      rw [prepareBuiltinArgv, if_neg (by simp [hne, hnative])]
      have hargv : ForInstance inst held (some (.resting .argv block.offset inst)) none := by
        refine { hno with ofArgv := fun a ha => ?_ }
        obtain rfl := Option.some.inj ha
        exact ⟨⟨_, rfl⟩, hfresh⟩
      exact withExecEnv_executes result hargv hpair hlength hkinds
  · next htwo =>
    have hnil : function.params = [] := by
      rcases hparams with hnil | hpair
      · exact hnil
      · exact absurd (congrArg List.length hpair) htwo
    exact withExecEnv_executes result hno hnil hlength hkinds

theorem executeBuiltinModule_executes {inst : Handle} (argv : List Bytes) (result : Result)
    (hkind : ∃ id parent, inst = .resting .moduleInst id parent) (hinst : inst ∈ held) :
    Executes held held so (executeBuiltinModule argv inst result) := by
  unfold executeBuiltinModule
  refine Usage.obeys_call trivial (fun x hx => List.mem_singleton.mp hx ▸ hinst) rfl (fun _ => rfl)
    fun found _ => ?_
  simp only [entered, List.append_nil]
  cases found with
  | some function => exact executeEntry_executes argv _ function result hkind hinst
  | none =>
    refine Usage.obeys_call trivial (fun x hx => List.mem_singleton.mp hx ▸ hinst) rfl
      (fun _ => rfl) fun found _ => ?_
    simp only [entered, List.append_nil]
    cases found with
    | some function => exact executeEntry_executes argv _ function result hkind hinst
    | none => exact ⟨rfl, .failed (by decide)⟩

/-! ## The module -/

theorem Ended.setMessage {seen : List (Option (List Int32))} {err : EspErr} {result : Result}
    (h : Ended so seen (err, result)) (text : Bytes) :
    Ended so seen (err, result.setMessage text) := by
  cases h with
  | returned hcode => exact .returned hcode
  | trapped herr => exact .trapped herr
  | failed herr => exact .failed herr

/-- A block is given back, behind handles that are no blocks. -/
theorem free_keeps {α : Type} {Q : Held → α → Prop} {id : Nat} (newer : List Handle)
    {f : Unit → Program α} (hnewer : usage.Fresh newer (.alone .block id))
    (hfresh : usage.Fresh held (.alone .block id)) (hf : Keeps Q (newer ++ held) so (f ())) :
    Keeps Q (newer ++ .alone .block id :: held) so (perform (.free (.alone .block id)) >>= f) :=
  Usage.obeys_free newer trivial (fun _ hx => absurd hx List.not_mem_nil) rfl (fun _ => rfl)
    (fun _ => rfl) hnewer (by simp) hfresh fun _ => hf

theorem executeBuffer_executes {id : Nat} (newer : List Handle) (argv : List Bytes) (bytes : Bytes)
    (result : Result) (hnewer : usage.Fresh newer (.alone .block id))
    (hfresh : usage.Fresh held (.alone .block id)) :
    Executes (newer ++ held) (newer ++ .alone .block id :: held) so
      (executeBuffer argv (.alone .block id) bytes result) := by
  have hbuffer : Handle.alone .block id ∈ newer ++ .alone .block id :: held :=
    List.mem_append_right _ List.mem_cons_self
  unfold executeBuffer
  refine Usage.obeys_make trivial (fun x hx => List.mem_singleton.mp hx ▸ hbuffer) rfl
    (fun _ => rfl) (fun answer _ hmakes => ?_) fun answer wasmModule _ hmakes hmodule => ?_
  · cases answer with
    | error text => exact free_keeps newer hnewer hfresh ⟨rfl, .failed (by decide)⟩
    | ok n => simp [usage, Except.toOption] at hmakes
  cases answer with
  | error text => simp [usage, Except.toOption] at hmakes
  | ok n =>
    obtain rfl : Handle.resting .wasmModule n (.alone .block id) = wasmModule := by
      simpa [usage, Except.toOption] using hmakes
    refine Usage.obeys_make trivial (fun x hx => List.mem_singleton.mp hx ▸ List.mem_cons_self) rfl
      (fun _ => rfl) (fun answer _ hmakes => ?_) fun answer inst _ hmakes hinst => ?_
    · cases answer with
      | error text =>
        exact Usage.obeys_free [] trivial (by simp [usage]) rfl (fun _ => rfl) (fun _ => rfl)
          (Usage.fresh_nil _ _) (by simp) hmodule fun _ =>
            free_keeps newer hnewer hfresh ⟨rfl, .failed (by decide)⟩
      | ok m => simp [usage, Except.toOption] at hmakes
    cases answer with
    | error text => simp [usage, Except.toOption] at hmakes
    | ok m =>
      obtain rfl : .resting .moduleInst m (.resting .wasmModule n (.alone .block id)) = inst := by
        simpa [usage, Except.toOption] using hmakes
      refine (executeBuiltinModule_executes argv result ⟨_, _, rfl⟩ List.mem_cons_self).bind
        fun t r ht => ?_
      obtain ⟨after, seen⟩ := t
      obtain ⟨err, result⟩ := r
      obtain ⟨rfl, hended⟩ := ht
      -- the instance, the module and the buffer, in this order
      refine Usage.obeys_free [] trivial (by simp [usage]) rfl (fun _ => rfl) (fun _ => rfl)
        (Usage.fresh_nil _ _) (by simp) hinst fun _ => ?_
      refine Usage.obeys_free [] trivial (by simp [usage]) rfl (fun _ => rfl) (fun _ => rfl)
        (Usage.fresh_nil _ _) (by simp) hmodule fun _ => ?_
      refine free_keeps newer hnewer hfresh ?_
      split
      · exact ⟨rfl, hended⟩
      · split
        · exact ⟨rfl, hended.setMessage _⟩
        · exact ⟨rfl, hended.setMessage _⟩

/-! ## The run -/

/-- The task gives back the script, unless it does not get as far as executing it. -/
theorem runnerTask_keeps {id n : Nat} (resolvedPath : Bytes) (argv : List Bytes) (bytes : Bytes)
    (result : Result) (hlog : Handle.alone .log n ∈ held)
    (hfresh : usage.Fresh held (.alone .block id)) :
    Keeps (fun t r => t.1 = (if r.2 then held else .alone .block id :: held) ∧ Ended so t.2 r.1)
      (.alone .block id :: held) so
      (runnerTask resolvedPath argv (.alone .log n) (.alone .block id, bytes) result) := by
  unfold runnerTask
  refine Usage.obeys_call trivial (fun _ hx => absurd hx List.not_mem_nil) rfl (fun _ => rfl)
    fun inited _ => ?_
  simp only [entered, List.append_nil]
  split
  · refine (executeBuffer_executes [] argv bytes result (Usage.fresh_nil _ _) hfresh).bind
      fun t r ht => ?_
    obtain ⟨after, seen⟩ := t
    obtain ⟨rfl, hended⟩ := ht
    refine Usage.obeys_call trivial (fun x hx => List.mem_singleton.mp hx ▸ hlog) rfl
      (fun _ => rfl) fun trimmed _ => ?_
    simp only [entered, List.append_nil]
    exact ⟨rfl, hended⟩
  refine Usage.obeys_make trivial (fun _ hx => absurd hx List.not_mem_nil) rfl (fun _ => rfl)
    (fun initialized _ hmakes => ?_) fun initialized env _ hmakes henv => ?_
  · cases initialized with
    | true => simp [usage] at hmakes
    | false =>
      refine Usage.obeys_call trivial
        (fun x hx => List.mem_singleton.mp hx ▸ List.mem_cons_of_mem _ hlog) rfl (fun _ => rfl)
        fun trimmed _ => ?_
      simp only [entered, List.append_nil]
      exact ⟨rfl, .failed (by decide)⟩
  cases initialized with
  | false => simp [usage] at hmakes
  | true =>
    obtain rfl : Handle.alone .threadEnv 0 = env := by simpa [usage] using hmakes
    have hnewer : usage.Fresh [.alone .threadEnv 0] (.alone .block id) := by
      simp [Usage.fresh_cons, Usage.fresh_nil]
    refine (executeBuffer_executes [.alone .threadEnv 0] argv bytes result hnewer hfresh).bind
      fun t r ht => ?_
    obtain ⟨after, seen⟩ := t
    obtain ⟨rfl, hended⟩ := ht
    refine Usage.obeys_call trivial
      (fun x hx => List.mem_singleton.mp hx ▸ List.mem_cons_of_mem _ hlog) rfl (fun _ => rfl)
      fun trimmed _ => ?_
    simp only [entered, List.append_nil]
    exact Usage.obeys_free [] trivial (fun _ hx => absurd hx List.not_mem_nil) rfl (fun _ => rfl)
      (fun _ => rfl) (Usage.fresh_nil _ _) (by simp) (Usage.fresh_cons.mp henv).2
      fun _ => ⟨rfl, hended⟩

theorem releaseContextResources_keeps {n : Nat} {script argv : Option Handle}
    (hlog : usage.Fresh held (.alone .log n))
    (hargv : ∀ a ∈ argv, (∃ id, a = .alone .block id) ∧ usage.Fresh held a)
    (hscript : ∀ b ∈ script, (∃ id, b = .alone .block id) ∧ usage.Fresh (argv.toList ++ held) b) :
    Keeps (fun t _ => t = (held, so)) (script.toList ++ (argv.toList ++ .alone .log n :: held)) so
      (releaseContextResources (some (.alone .log n)) script argv) := by
  have hblocks : usage.Fresh (script.toList ++ argv.toList) (.alone .log n) := by
    intro x hx
    simp only [List.mem_append, Option.mem_toList] at hx
    rcases hx with hx | hx
    · obtain ⟨⟨_, rfl⟩, -⟩ := hscript x hx
      simp
    · obtain ⟨⟨_, rfl⟩, -⟩ := hargv x hx
      simp
  have hclose : Keeps (fun t _ => t = (script.toList ++ argv.toList ++ held, so))
      (script.toList ++ argv.toList ++ ((some (Handle.alone .log n)).toList ++ held)) so
      (ifHeld (some (.alone .log n)) fun log => perform (.closeLog log)) := by
    refine ifHeld_keeps _ fun log heq => ?_
    obtain rfl := Option.some.inj heq
    exact Usage.obeys_free (f := pure) _ trivial (fun _ hx => absurd hx List.not_mem_nil) rfl
      (fun _ => rfl) (fun _ => rfl) hblocks (by simp) hlog fun _ => rfl
  rw [← List.append_assoc]
  refine hclose.bind fun t _ ht => ?_
  subst ht
  rw [List.append_assoc]
  refine (ifHeld_keeps [] fun buffer heq => ?_).bind fun t _ ht => ?_
  · obtain ⟨⟨id, rfl⟩, hfresh⟩ := hscript buffer heq
    exact free_keeps [] (f := pure) (Usage.fresh_nil _ _) hfresh rfl
  subst ht
  refine ifHeld_keeps [] fun block heq => ?_
  obtain ⟨⟨id, rfl⟩, hfresh⟩ := hargv block heq
  exact free_keeps [] (f := pure) (Usage.fresh_nil _ _) hfresh rfl

/-- The context is released, and the run returns. -/
theorem release_executes {n : Nat} {script argv : Option Handle}
    {seen : List (Option (List Int32))} {r : EspErr × Result}
    (hlog : usage.Fresh held (.alone .log n))
    (hargv : ∀ a ∈ argv, (∃ id, a = .alone .block id) ∧ usage.Fresh held a)
    (hscript : ∀ b ∈ script, (∃ id, b = .alone .block id) ∧ usage.Fresh (argv.toList ++ held) b)
    (hended : Ended so seen r) :
    Keeps (fun t r => t.1 = held ∧ Ended so t.2 r)
      (script.toList ++ (argv.toList ++ .alone .log n :: held)) seen
      (releaseContextResources (some (.alone .log n)) script argv >>= fun _ => pure r) := by
  refine (releaseContextResources_keeps hlog hargv hscript).bind fun t _ ht => ?_
  subst ht
  exact ⟨rfl, hended⟩

theorem serviceRun_executes (resolvedPath logPath : Bytes) (argc : Int)
    (argv : Option (Nat → Option Bytes)) (refusedFor : Option Bytes) :
    Executes held held so (serviceRun resolvedPath logPath argc argv refusedFor) := by
  have hnone : ∀ (P : Handle → Prop), ∀ h ∈ (none : Option Handle), P h :=
    fun P h hh => absurd hh (Option.not_mem_none h)
  unfold serviceRun
  refine Usage.obeys_make trivial (fun _ hx => absurd hx List.not_mem_nil) rfl (fun _ => rfl)
    (fun answer _ hmakes => ?_) fun answer log _ hmakes hlog => ?_
  · cases answer with
    | none => exact ⟨rfl, .failed (by decide)⟩
    | some n => simp [usage] at hmakes
  cases answer with
  | none => simp [usage] at hmakes
  | some n =>
    obtain rfl : Handle.alone .log n = log := by simpa [usage] using hmakes
    dsimp only
    split
    · exact release_executes hlog (hnone _) (hnone _) (.failed (by decide))
    next copy hcopy =>
    refine Usage.obeys_make trivial (fun _ hx => absurd hx List.not_mem_nil) rfl (fun _ => rfl)
      (fun answer _ hmakes => ?_) fun answer block _ hmakes hblock => ?_
    · cases answer with
      | none => exact release_executes hlog (hnone _) (hnone _) (.failed (by decide))
      | some a => simp [usage] at hmakes
    cases answer with
    | none => simp [usage] at hmakes
    | some a =>
      obtain rfl : Handle.alone .block a = block := by simpa [usage] using hmakes
      have hfreshArgv : usage.Fresh held (.alone .block a) := (Usage.fresh_cons.mp hblock).2
      have hargv : ∀ h ∈ some (Handle.alone .block a),
          (∃ id, h = .alone .block id) ∧ usage.Fresh held h := by
        intro h hh
        obtain rfl := Option.some.inj hh
        exact ⟨⟨a, rfl⟩, hfreshArgv⟩
      refine (loadFile_keeps resolvedPath Result.init).bind fun t loaded ht => ?_
      cases ht with
      | failed result => exact release_executes hlog hargv (hnone _) (.failed (by decide))
      | @loaded id bytes result hscript =>
        have hfresh : usage.Fresh ([.alone .block a] ++ held) (.alone .block id) :=
          fun x hx => hscript x (by
            rcases List.mem_append.mp hx with hx | hx
            · exact List.mem_singleton.mp hx ▸ List.mem_cons_self
            · exact List.mem_cons_of_mem _ (List.mem_cons_of_mem _ hx))
        have hbuffer : ∀ h ∈ some (Handle.alone .block id), (∃ id, h = .alone .block id) ∧
            usage.Fresh ((some (Handle.alone .block a)).toList ++ held) h := by
          intro h hh
          obtain rfl := Option.some.inj hh
          exact ⟨⟨id, rfl⟩, hfresh⟩
        dsimp only
        split
        · exact release_executes hlog hargv hbuffer (.failed (by decide))
        refine (runnerTask_keeps resolvedPath copy.strings bytes result
          (List.mem_cons_of_mem _ List.mem_cons_self) hscript).bind fun t r ht => ?_
        obtain ⟨after, seen⟩ := t
        obtain ⟨ran, executed⟩ := r
        obtain ⟨rfl, hended⟩ := ht
        cases executed with
        | true => exact release_executes hlog hargv (hnone _) hended
        | false => exact release_executes hlog hargv hbuffer hended

/-- Every call can fail, or has nothing to fail at. -/
theorem exists_answer (held : List Handle) (call : Call) :
    ∃ answer, usage.protocol.answers held call answer := by
  have hmakes : ∀ answer, usage.makes call answer = none →
      ∀ h ∈ usage.makes call answer, usage.Fresh held h := by
    intro answer hnone h hh
    rw [hnone] at hh
    cases hh
  cases call with
  | openLog _ | fopen _ | malloc _ | createExecEnv _ | createTask =>
    exact ⟨none, trivial, hmakes none rfl⟩
  | closeLog _ | fclose _ | free _ | destroyThreadEnv _ | moduleFree _ | destroyExecEnv _
  | deleteTask _ | deinstantiate _ | unload _ => exact ⟨(), trivial, hmakes () rfl⟩
  | trimLog _ => exact ⟨EspErr.fail, trivial, hmakes EspErr.fail rfl⟩
  | fseek _ _ | threadEnvInited | initThreadEnv | getExecEnvSingleton _ =>
    exact ⟨false, trivial, hmakes false rfl⟩
  | ftell _ => exact ⟨(0 : Int), trivial, hmakes (0 : Int) rfl⟩
  | fread _ _ size => exact ⟨([] : Bytes), Nat.zero_le size, hmakes ([] : Bytes) rfl⟩
  | load _ _ | instantiate _ =>
    exact ⟨Except.error [], trivial, hmakes (Except.error []) rfl⟩
  | lookupFunction _ _ | getException _ => exact ⟨none, trivial, hmakes none rfl⟩
  | getParamTypes _ function _ => exact ⟨function.params, rfl, hmakes function.params rfl⟩
  | getResultTypes _ function _ => exact ⟨function.results, rfl, hmakes function.results rfl⟩
  | moduleMalloc _ _ =>
    have hnone : usage.answers (.moduleMalloc ‹_› ‹_›) ⟨0, false, []⟩ := by simp [usage]
    exact ⟨⟨0, false, []⟩, hnone, hmakes ⟨0, false, []⟩ rfl⟩
  | callWasm _ _ _ _ => exact ⟨none, fun _ hh => absurd hh (Option.not_mem_none _), hmakes none rfl⟩

/-- **A run is tidy**: whatever its calls answer, it makes none that it may not make, gives back
all that it takes, and returns without an error if and only if the script has returned. -/
theorem run_tidy (held : List Handle) (resolvedPath logPath : Bytes) (argc : Int)
    (argv : Option (Nat → Option Bytes)) (refusedFor : Option Bytes) :
    usage.Tidy entered (Ended []) held (serviceRun resolvedPath logPath argc argv refusedFor) :=
  Usage.tidy_of_obeys exists_answer (serviceRun_executes resolvedPath logPath argc argv refusedFor)

end Jukeboy.Services.ScriptExecution
