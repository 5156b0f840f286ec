import Mathlib.Data.List.TakeWhile
import Jukeboy.Services.LogTrim
import Jukeboy.Services.SocketMemory

/-! # What a script says

A script speaks through `log`, which goes to the result of its run and to its log file, and
through the runtime's `printf`, which goes to the log file alone. The natives here take
pointers that a script made. -/
namespace Jukeboy.Services.ScriptTranscript

open Jukeboy.Base Jukeboy.Base.ByteFile Jukeboy.Base.ByteLayout Jukeboy.Base.Fallible
open Jukeboy.Services.SocketEnv
open Jukeboy.Services.LogTrim (LogFile newline logMaxSize trimLogFd Trimmed)

/-! ## Pointers of a script -/

/-- `wasm_runtime_validate_native_addr`; a native pointer is an offset too. -/
def validateNativeAddr (memory : Bytes) (native : Nat) (size : UInt32) : Bool :=
  native + size.toNat ≤ memory.length

/-- `wasm_runtime_addr_native_to_app`. -/
def addrNativeToApp (native : Nat) : UInt32 := .ofNat native

/-- `script_validate_guest_buffer_from_native` for a buffer that may not be NULL. -/
def validateGuestBufferFromNative (native : Option Nat) (size : UInt32) : Host Pointer :=
  match native with
  | none => fail .inval
  | some o => do
    let s ← get
    if validateNativeAddr s.memory o (if size = 0 then 1 else size) = false then fail .inval
    else if addrNativeToApp o = 0 then fail .inval
    else getGuestBuffer (addrNativeToApp o) size false

/-- `script_validate_guest_string_from_native` for a string that may not be NULL. -/
def validateGuestStringFromNative (native : Option Nat) : Host Pointer :=
  match native with
  | none => fail .inval
  | some o => do
    let s ← get
    if validateNativeAddr s.memory o 1 = false then fail .inval
    else if addrNativeToApp o = 0 then fail .inval
    else getGuestString (addrNativeToApp o) false

/-- What `log_wrapper` reads of its argument. -/
def logMessage (native : Option Nat) : Host Bytes := do
  let guestMessage ← validateGuestStringFromNative native
  loadString guestMessage

/-- `title_len` of `get_track_title_wrapper`. -/
def titleLen (title : Bytes) (bufLen : UInt32) : Nat :=
  if title.length ≥ bufLen.toNat then bufLen.toNat - 1 else title.length

/-- `get_track_title_wrapper`; `title` is what `cartridge_service_get_track_name` returns.
What fails returns `ESP_ERR_INVALID_ARG`. -/
def getTrackTitle (index : Int32) (buf : Option Nat) (bufLen : UInt32) (title : Option Bytes) :
    Host EspErr :=
  if buf = none ∨ bufLen = 0 ∨ index < 0 then fail .inval
  else do
    let guestBuf ← validateGuestBufferFromNative buf bufLen
    match title with
    | none => do
      store guestBuf 0 [0]
      pure .notFound
    | some title => do
      store guestBuf 0 (title.take (titleLen title bufLen))
      store guestBuf (titleLen title bufLen) [0]
      pure .ok

/-! ## The output of a result -/

/-- `SCRIPT_SERVICE_MAX_OUTPUT_LEN`. -/
def maxOutputLen : Nat := 2048

/-- `script_append_result_output`, `none` when it writes outside the array. -/
def appendResultOutput (output data : Bytes) : Option Bytes :=
  if data = [] then some output
  else
    let currentLen := (output.takeWhile (· ≠ 0)).length
    if currentLen ≥ maxOutputLen - 1 then some output
    else do
      let copyLen := min data.length (maxOutputLen - 1 - currentLen)
      let output ← writeInside output currentLen (data.take copyLen)
      writeInside output (currentLen + copyLen) [0]

/-! ## The log file -/

/-- `script_append_log_data`; `moved` is how many bytes the `write` moves at most, if it
succeeds. -/
def appendLogData (moved : Option Nat) (file : LogFile) (data : Bytes) : EspErr × LogFile :=
  if data = [] then (.invalidArg, file)
  else
    match moved with
    | none => (.fail, file)
    | some count =>
      let file := file.write (data.take count)
      (if (data.take count).length ≠ data.length then .fail else .ok, file)

/-- `"[wasm] "`. -/
def logPrefix : Bytes := [91, 119, 97, 115, 109, 93, 32]

/-- The three writes of `log_wrapper` to the log file. -/
def logToFile (moved : Nat → Option Nat) (message : Bytes) (file : LogFile) : LogFile :=
  let (err, file) := appendLogData (moved 0) file logPrefix
  if err ≠ .ok then file
  else
    let file := if message.length > 0 then (appendLogData (moved 1) file message).2 else file
    (appendLogData (moved 2) file [newline]).2

/-- `SCRIPT_SERVICE_MAX_PRINTF_CAPTURE_LEN`. -/
def maxPrintfCaptureLen : Nat := 512

/-- `wamr_host_vprintf_hook` on the log file, the text being formatted. -/
def printfToFile (moved : Option Nat) (text : Bytes) (file : LogFile) : LogFile :=
  if text.length > 0 then
    (appendLogData moved file (text.take (maxPrintfCaptureLen - 1))).2
  else file

/-! ## A run -/

/-- The memory of a script, and what its run has captured: `context->result.output` and the
log file, when there is one. -/
structure State where
  memory : Bytes
  output : Bytes
  log : Option LogFile

/-- A run begins: `script_init_result` and `script_prepare_log_file`. -/
def State.start (memory : Bytes) (hasLog : Bool) : State :=
  ⟨memory, List.replicate maxOutputLen 0, if hasLog then some ⟨[], 0⟩ else none⟩

/-- What a script does: it changes its memory, or calls a native. -/
inductive Event where
  | compute (memory : Bytes)
  | log (message : Option Nat) (moved : Nat → Option Nat)
  | printf (text : Bytes) (moved : Option Nat)
  | getTrackTitle (index : Int32) (buf : Option Nat) (bufLen : UInt32) (title : Option Bytes)

def State.step (s : State) : Event → Option State
  | .compute memory => some { s with memory }
  | .log message moved =>
    match (logMessage message (Guest.enter s.memory)).1 with
    | .error _ => some s
    | .ok text => do
      let output ← appendResultOutput s.output logPrefix
      let output ← appendResultOutput output text
      let output ← appendResultOutput output [newline]
      pure { s with output, log := s.log.map (logToFile moved text) }
  | .printf text moved => some { s with log := s.log.map (printfToFile moved text) }
  | .getTrackTitle index buf bufLen title =>
    some { s with memory := (getTrackTitle index buf bufLen title (Guest.enter s.memory)).2.memory }

def State.run : State → List Event → Option State
  | s, [] => some s
  | s, event :: events => (s.step event).bind fun t => t.run events

/-! ## What is said -/

def line (text : Bytes) : Bytes := logPrefix ++ text ++ [newline]

/-- The line of a `log` whose argument is accepted. -/
def Event.said (memory : Bytes) : Event → Bytes
  | .log message _ =>
    match (logMessage message (Guest.enter memory)).1 with
    | .error _ => []
    | .ok text => line text
  | .compute _ | .printf _ _ | .getTrackTitle _ _ _ _ => []

/-- What is meant for the log file: the line of a `log`, the beginning of a `printf`. -/
def Event.logged (memory : Bytes) : Event → Bytes
  | .printf text _ => text.take (maxPrintfCaptureLen - 1)
  | .log message moved => said memory (.log message moved)
  | .compute _ | .getTrackTitle _ _ _ _ => []

def Event.after (memory : Bytes) : Event → Bytes
  | .compute memory' => memory'
  | .getTrackTitle index buf bufLen title =>
    (ScriptTranscript.getTrackTitle index buf bufLen title (Guest.enter memory)).2.memory
  | _ => memory

def saidBy : Bytes → List Event → Bytes
  | _, [] => []
  | memory, event :: events => event.said memory ++ saidBy (event.after memory) events

def loggedBy : Bytes → List Event → Bytes
  | _, [] => []
  | memory, event :: events => event.logged memory ++ loggedBy (event.after memory) events

/-- Every `write` of the event moves all it is given. -/
def Event.Whole (memory : Bytes) : Event → Prop
  | .log message moved => ∀ text, (logMessage message (Guest.enter memory)).1 = .ok text →
      ∀ i, ∃ count, moved i = some count ∧ (line text).length ≤ count
  | .printf text moved => ∃ count, moved = some count ∧ text.length ≤ count
  | _ => True

def AllWhole : Bytes → List Event → Prop
  | _, [] => True
  | memory, event :: events => event.Whole memory ∧ AllWhole (event.after memory) events

/-! ## The output -/

/-- The output holds the beginning of this text, with a zero behind it. -/
structure Holds (output said : Bytes) : Prop where
  length : output.length = maxOutputLen
  noZero : 0 ∉ said
  text : ∃ rest, output = said.take (maxOutputLen - 1) ++ 0 :: rest

theorem holds_start : Holds (List.replicate maxOutputLen 0) [] :=
  ⟨List.length_replicate, List.not_mem_nil, List.replicate (maxOutputLen - 1) 0, rfl⟩

theorem takeWhile_append_zero {text : Bytes} (h : 0 ∉ text) (rest : Bytes) :
    (text ++ 0 :: rest).takeWhile (· ≠ 0) = text := by
  rw [List.takeWhile_append_of_pos]
  · rw [List.takeWhile_cons_of_neg (by decide), List.append_nil]
  · intro c hc
    simp only [decide_eq_true_eq]
    rintro rfl
    exact h hc

theorem notMem_take {text : Bytes} (h : 0 ∉ text) (n : Nat) : 0 ∉ text.take n :=
  fun hmem => h (List.mem_of_mem_take hmem)

theorem Holds.takeWhile_eq {output said : Bytes} (h : Holds output said) :
    output.takeWhile (· ≠ 0) = said.take (maxOutputLen - 1) := by
  obtain ⟨rest, hrest⟩ := h.text
  rw [hrest, takeWhile_append_zero (notMem_take h.noZero _)]

/-- `script_append_result_output` adds what fits and never writes outside the array. -/
theorem appendResultOutput_spec {output said data : Bytes} (h : Holds output said)
    (hdata : 0 ∉ data) :
    ∃ output', appendResultOutput output data = some output' ∧ Holds output' (said ++ data) := by
  have hzero : 0 ∉ said ++ data := by
    rw [List.mem_append]
    exact not_or.mpr ⟨h.noZero, hdata⟩
  obtain ⟨rest, hrest⟩ := h.text
  have hlen := h.length
  have hmax : maxOutputLen = 2048 := rfl
  unfold appendResultOutput
  rw [h.takeWhile_eq]
  split
  · next hnil =>
    refine ⟨output, rfl, ?_⟩
    rwa [hnil, List.append_nil]
  · dsimp only
    split
    · next hfull =>
      -- The array is full: the beginning of what is said does not change any more.
      refine ⟨output, rfl, h.length, hzero, rest, ?_⟩
      rw [List.length_take] at hfull
      rw [List.take_append_of_le_length (by omega), hrest]
    · next hroom =>
      rw [List.length_take] at hroom
      have hshort : said.length < maxOutputLen - 1 := by omega
      have hwhole : said.take (maxOutputLen - 1) = said :=
        List.take_of_length_le (Nat.le_of_lt hshort)
      rw [hwhole] at hrest ⊢
      generalize hcopied : data.take (min data.length (maxOutputLen - 1 - said.length)) = copied
      have hcopiedlen : copied.length = min data.length (maxOutputLen - 1 - said.length) := by
        rw [← hcopied, List.length_take]
        omega
      have hsum : said.length + (rest.length + 1) = maxOutputLen := by
        rw [← hlen, hrest, List.length_append, List.length_cons]
      have hfits : copied.length ≤ (0 :: rest).length := by
        rw [List.length_cons]
        omega
      have hfirst := writeInside_append said (0 :: rest) copied hfits
      have hroomNul : [(0 : UInt8)].length ≤ ((0 :: rest).drop copied.length).length := by
        simp only [List.length_drop, List.length_cons, List.length_nil]
        omega
      have hsecond := writeInside_append (said ++ copied) ((0 :: rest).drop copied.length) [0]
        hroomNul
      rw [List.append_assoc, List.length_append] at hsecond
      rw [hrest]
      refine ⟨said ++ copied ++ ([0] ++ ((0 :: rest).drop copied.length).drop 1), ?_, ?_, hzero, ?_⟩
      · simp only [hfirst, Option.bind_eq_bind, Option.bind_some, ← hcopiedlen]
        exact hsecond
      · simp only [List.length_append, List.length_drop, List.length_cons, List.length_nil]
        omega
      · refine ⟨((0 :: rest).drop copied.length).drop 1, ?_⟩
        rw [List.take_append, hwhole, ← hcopied]
        congr 2
        rw [List.take_eq_take_iff]
        omega

/-! ## The log file -/

/-- The file is written at its end. -/
def AtEnd (file : LogFile) : Prop := file.pos = file.content.length

theorem write_of_atEnd {file : LogFile} (h : AtEnd file) (bytes : Bytes) :
    (file.write bytes).content = file.content ++ bytes ∧ AtEnd (file.write bytes) := by
  have hwrite : (file.write bytes).content = file.content ++ bytes := by
    rw [LogFile.write, h, overwrite_of_le (Nat.le_refl _), List.take_length,
      List.drop_of_length_le (by omega), List.append_nil]
  refine ⟨hwrite, ?_⟩
  rw [AtEnd, hwrite, List.length_append, ← h]
  rfl

/-- What a write adds to a file. -/
structure Adds (file file' : LogFile) (part : Bytes) : Prop where
  content : file'.content = file.content ++ part
  atEnd : AtEnd file'

theorem Adds.trans {a b c : LogFile} {p q : Bytes} (h : Adds a b p) (h' : Adds b c q) :
    Adds a c (p ++ q) where
  content := by rw [h'.content, h.content, List.append_assoc]
  atEnd := h'.atEnd

theorem adds_nil {file : LogFile} (h : AtEnd file) : Adds file file [] :=
  ⟨(List.append_nil _).symm, h⟩

/-- `script_append_log_data` adds a beginning of the data, all of it when it succeeds. -/
theorem appendLogData_spec (moved : Option Nat) {file : LogFile} (h : AtEnd file) (data : Bytes) :
    ∃ part, Adds file (appendLogData moved file data).2 part ∧ part <+: data ∧
      ((appendLogData moved file data).1 = .ok → part = data) ∧
      (∀ count, moved = some count → data.length ≤ count → data ≠ [] →
        (appendLogData moved file data).1 = .ok) := by
  unfold appendLogData
  split
  · next hnil =>
    refine ⟨[], adds_nil h, List.nil_prefix, ?_, ?_⟩
    · intro hok
      cases hok
    · intro count _ _ hne
      exact absurd hnil hne
  · next hne =>
    cases moved with
    | none =>
      refine ⟨[], adds_nil h, List.nil_prefix, ?_, ?_⟩
      · intro hok
        cases hok
      · intro count hcount
        cases hcount
    | some count =>
      obtain ⟨hcontent, hend⟩ := write_of_atEnd h (data.take count)
      refine ⟨data.take count, ⟨hcontent, hend⟩, List.take_prefix .., ?_, ?_⟩
      · intro hok
        dsimp only at hok
        split at hok
        · cases hok
        · next hwhole => exact (List.take_prefix ..).eq_of_length (not_not.mp hwhole)
      · intro count' hcount hle _
        cases hcount
        dsimp only
        rw [List.take_of_length_le hle]
        exact if_neg (fun hne => hne rfl)

theorem logPrefix_ne_nil : logPrefix ≠ [] := List.cons_ne_nil _ _

/-- `log_wrapper` adds parts of its line in order, the whole line when every write moves
all it is given. -/
theorem logToFile_spec (moved : Nat → Option Nat) (text : Bytes) {file : LogFile}
    (h : AtEnd file) :
    ∃ part, Adds file (logToFile moved text file) part ∧ part.Sublist (line text) ∧
      ((∀ i, ∃ count, moved i = some count ∧ (line text).length ≤ count) → part = line text) := by
  have hlen : (line text).length = logPrefix.length + text.length + 1 := by
    rw [line, List.length_append, List.length_append, List.length_singleton]
  obtain ⟨first, hfirst, hpre, hok, hsucceeds⟩ := appendLogData_spec (moved 0) h logPrefix
  unfold logToFile
  generalize appendLogData (moved 0) file logPrefix = written at hfirst hok hsucceeds
  obtain ⟨err, file₁⟩ := written
  dsimp only at hfirst hok hsucceeds ⊢
  split
  · next hfailed =>
    refine ⟨first, hfirst, ?_, fun hwhole => ?_⟩
    · rw [line, List.append_assoc]
      exact hpre.sublist.trans (List.sublist_append_left ..)
    · obtain ⟨count, hcount, hle⟩ := hwhole 0
      exact absurd (hsucceeds count hcount (by omega) logPrefix_ne_nil) hfailed
  · next herr =>
    have hheader := hok (not_not.mp herr)
    obtain ⟨second, hsecond, hsecondpre, hsecondwhole⟩ : ∃ second,
        Adds file₁ (if text.length > 0 then (appendLogData (moved 1) file₁ text).2 else file₁)
          second ∧ second <+: text ∧
        ((∀ i, ∃ count, moved i = some count ∧ (line text).length ≤ count) → second = text) := by
      split
      · next hpos =>
        obtain ⟨part, hadds, hpart, hwhole, hall⟩ := appendLogData_spec (moved 1) hfirst.atEnd text
        refine ⟨part, hadds, hpart, fun hmoved => ?_⟩
        obtain ⟨count, hcount, hle⟩ := hmoved 1
        exact hwhole (hall count hcount (by omega) (List.length_pos_iff.mp hpos))
      · next hnone =>
        have hnil : text = [] := List.eq_nil_of_length_eq_zero (by omega)
        exact ⟨[], adds_nil hfirst.atEnd, List.nil_prefix, fun _ => hnil.symm⟩
    obtain ⟨third, hthird, hthirdpre, hthirdok, hthirdall⟩ :=
      appendLogData_spec (moved 2) hsecond.atEnd [newline]
    refine ⟨first ++ second ++ third, (hfirst.trans hsecond).trans hthird, ?_, fun hmoved => ?_⟩
    · exact (hpre.sublist.append hsecondpre.sublist).append hthirdpre.sublist
    · obtain ⟨count, hcount, hle⟩ := hmoved 2
      have hsize : [newline].length ≤ count := by
        rw [List.length_singleton]
        omega
      rw [hheader, hsecondwhole hmoved,
        hthirdok (hthirdall count hcount hsize (List.cons_ne_nil _ _)), line]

theorem printfToFile_spec (moved : Option Nat) (text : Bytes) {file : LogFile} (h : AtEnd file) :
    ∃ part, Adds file (printfToFile moved text file) part ∧
      part.Sublist (text.take (maxPrintfCaptureLen - 1)) ∧
      ((∃ count, moved = some count ∧ text.length ≤ count) →
        part = text.take (maxPrintfCaptureLen - 1)) := by
  unfold printfToFile
  split
  · next hpos =>
    obtain ⟨part, hadds, hpart, hwhole, hall⟩ :=
      appendLogData_spec moved h (text.take (maxPrintfCaptureLen - 1))
    refine ⟨part, hadds, hpart.sublist, ?_⟩
    rintro ⟨count, hcount, hle⟩
    have hmax : maxPrintfCaptureLen = 512 := rfl
    have hne : text.take (maxPrintfCaptureLen - 1) ≠ [] := by
      rw [← List.length_pos_iff, List.length_take]
      omega
    refine hwhole (hall count hcount ?_ hne)
    rw [List.length_take]
    omega
  · next hnone =>
    have hnil : text = [] := List.eq_nil_of_length_eq_zero (by omega)
    rw [hnil]
    exact ⟨[], adds_nil h, List.Sublist.refl _, fun _ => rfl⟩

/-! ## The natives -/

section
variable {memory : Bytes} {o : Nat}

theorem toNat_addrNativeToApp (h : o < 2 ^ 32) : (addrNativeToApp o).toNat = o :=
  UInt32.toNat_ofNat_of_lt' h

/-- What a script may pass as a buffer: not its first byte, and all of it in its memory. -/
def BufferAt (memory : Bytes) (o : Nat) (size : UInt32) : Prop :=
  o ≠ 0 ∧ o + size.toNat ≤ memory.length

/-- What a script may pass as a string: not its first byte, with a zero behind it. -/
def StringAt (memory : Bytes) (o : Nat) : Prop := o ≠ 0 ∧ 0 ∈ memory.drop o

theorem addrNativeToApp_ne_zero (h : o < 2 ^ 32) (hne : o ≠ 0) : addrNativeToApp o ≠ 0 := by
  intro hzero
  have hnat := congrArg UInt32.toNat hzero
  rw [toNat_addrNativeToApp h] at hnat
  exact hne hnat

theorem validateGuestBufferFromNative_ok (hmemory : memory.length ≤ 2 ^ 32) {size : UInt32}
    (hsize : size ≠ 0) (h : BufferAt memory o size) :
    validateGuestBufferFromNative (some o) size (Guest.enter memory) =
      (.ok ⟨some o, size.toNat⟩, { Guest.enter memory with validated := [⟨o, size.toNat⟩] }) := by
  obtain ⟨hne, hfits⟩ := h
  have hpos : 0 < size.toNat := Nat.pos_of_ne_zero fun h0 => hsize (UInt32.toNat_inj.mp h0)
  have hlt : o < 2 ^ 32 := by omega
  have happ := toNat_addrNativeToApp hlt
  have hnative : validateNativeAddr memory o size = true := decide_eq_true hfits
  have hvalid : validateAppAddr memory (addrNativeToApp o) size = true := by
    rw [validateAppAddr, happ]
    exact decide_eq_true hfits
  have haddr : addrAppToNative memory (addrNativeToApp o) = some o := by
    rw [addrAppToNative_of_valid hsize hvalid, happ]
  unfold validateGuestBufferFromNative
  refine (bind_of_ok rfl).trans ?_
  rw [if_neg hsize, if_neg (by rw [Guest.enter, hnative]; decide),
    if_neg (addrNativeToApp_ne_zero hlt hne), getGuestBuffer, if_neg
    (addrNativeToApp_ne_zero hlt hne)]
  refine (bind_of_ok rfl).trans ?_
  rw [if_neg (by rw [Guest.enter, hvalid]; exact fun hbad => Bool.noConfusion hbad.2)]
  refine (bind_of_ok rfl).trans ?_
  simp only [Guest.enter, happ, haddr, Option.isSome_some, true_or, if_true, List.nil_append]
  rfl

theorem validateGuestBufferFromNative_error {size : UInt32} (hsize : size ≠ 0)
    (h : ¬ BufferAt memory o size) :
    ∃ err, validateGuestBufferFromNative (some o) size (Guest.enter memory) =
      (.error err, Guest.enter memory) := by
  unfold validateGuestBufferFromNative
  by_cases hfits : o + size.toNat ≤ memory.length
  · have hzero : o = 0 := not_not.mp fun hne => h ⟨hne, hfits⟩
    have hnative : ¬ validateNativeAddr (Guest.enter memory).memory o size = false := by
      rw [show validateNativeAddr (Guest.enter memory).memory o size = true from
        decide_eq_true hfits]
      decide
    refine ⟨.inval, (bind_of_ok rfl).trans ?_⟩
    rw [if_neg hsize, if_neg hnative, if_pos (by rw [hzero]; rfl)]
    rfl
  · have hnative : validateNativeAddr (Guest.enter memory).memory o size = false :=
      decide_eq_false hfits
    refine ⟨.inval, (bind_of_ok rfl).trans ?_⟩
    rw [if_neg hsize, if_pos hnative]
    rfl

theorem validateGuestStringFromNative_ok (hmemory : memory.length ≤ 2 ^ 32)
    (h : StringAt memory o) :
    validateGuestStringFromNative (some o) (Guest.enter memory) =
      (.ok ⟨some o, (cstring memory o).length + 1⟩,
        { Guest.enter memory with validated := [⟨o, (cstring memory o).length + 1⟩] }) := by
  obtain ⟨hne, hmem⟩ := h
  have hinside : o < memory.length := by
    by_contra hout
    rw [List.drop_of_length_le (Nat.not_lt.mp hout)] at hmem
    exact List.not_mem_nil hmem
  have hlt : o < 2 ^ 32 := by omega
  have happ := toNat_addrNativeToApp hlt
  have hnative : validateNativeAddr memory o 1 = true := decide_eq_true hinside
  have hvalid : validateAppStrAddr memory (addrNativeToApp o) = true := by
    rw [validateAppStrAddr, happ]
    exact List.contains_iff_mem.mpr hmem
  have haddr : addrAppToNative memory (addrNativeToApp o) = some o := by
    rw [addrAppToNative, happ, if_pos hinside]
  unfold validateGuestStringFromNative
  refine (bind_of_ok rfl).trans ?_
  rw [if_neg (by rw [Guest.enter, hnative]; decide), if_neg (addrNativeToApp_ne_zero hlt hne),
    getGuestString, if_neg (addrNativeToApp_ne_zero hlt hne)]
  refine (bind_of_ok rfl).trans ?_
  rw [if_neg (by rw [Guest.enter, hvalid]; decide)]
  refine (bind_of_ok rfl).trans ?_
  simp only [Guest.enter, happ, haddr, Option.isSome_some, if_true, List.nil_append]
  rfl

theorem validateGuestStringFromNative_error (hmemory : memory.length ≤ 2 ^ 32)
    (h : ¬ StringAt memory o) :
    ∃ err, validateGuestStringFromNative (some o) (Guest.enter memory) =
      (.error err, Guest.enter memory) := by
  unfold validateGuestStringFromNative
  by_cases hinside : o < memory.length
  · have happ := toNat_addrNativeToApp (o := o) (by omega)
    have hnative : validateNativeAddr memory o 1 = true := decide_eq_true hinside
    by_cases hzero : o = 0
    · refine ⟨.inval, (bind_of_ok rfl).trans ?_⟩
      rw [if_neg (by rw [Guest.enter, hnative]; decide), if_pos (by rw [hzero]; rfl)]
      rfl
    · have hnone : 0 ∉ memory.drop o := fun hmem => h ⟨hzero, hmem⟩
      have hne := addrNativeToApp_ne_zero (by omega) hzero
      have hinvalid :
          validateAppStrAddr (Guest.enter memory).memory (addrNativeToApp o) = false := by
        rw [Guest.enter, validateAppStrAddr, happ]
        exact Bool.eq_false_iff.mpr fun hmem => hnone (List.contains_iff_mem.mp hmem)
      refine ⟨.fault, (bind_of_ok rfl).trans ?_⟩
      rw [if_neg (by rw [Guest.enter, hnative]; decide), if_neg hne, getGuestString, if_neg hne]
      refine (bind_of_ok rfl).trans ?_
      rw [if_pos hinvalid]
      rfl
  · have hnative : validateNativeAddr (Guest.enter memory).memory o 1 = false :=
      decide_eq_false hinside
    refine ⟨.inval, (bind_of_ok rfl).trans ?_⟩
    rw [if_pos hnative]
    rfl

theorem write_fits {p : Pointer} (hp : p.native = some o) (disp : Nat) (bytes : Bytes)
    (memory : Bytes) (hfits : o + disp + bytes.length ≤ memory.length) :
    p.write disp bytes memory = overwrite memory (o + disp) bytes := by
  rw [Pointer.write, hp]
  exact List.take_of_length_le (Nat.le_of_eq (length_overwrite hfits))

/-- `store` behind a pointer, with room for the bytes. -/
theorem store_fits {p : Pointer} (hp : p.native = some o) (disp : Nat) (bytes : Bytes)
    (s : Guest) (hfits : o + disp + bytes.length ≤ s.memory.length) :
    store p disp bytes s = (.ok (), { s with
      memory := overwrite s.memory (o + disp) bytes
      accesses := s.accesses ++ [⟨p, disp, bytes.length⟩] }) := by
  refine (bind_of_ok rfl).trans ?_
  show (Except.ok (), { s.touch p disp bytes.length with
    memory := p.write disp bytes s.memory }) = _
  rw [write_fits hp disp bytes s.memory hfits]
  rfl

/-- What `get_track_title` leaves at a buffer. -/
def titleBytes (bufLen : UInt32) (title : Option Bytes) : Bytes :=
  (title.getD []).take (bufLen.toNat - 1) ++ [0]

theorem length_titleBytes_le {bufLen : UInt32} (hlen : bufLen ≠ 0) (title : Option Bytes) :
    (titleBytes bufLen title).length ≤ bufLen.toNat := by
  have hpos : 0 < bufLen.toNat := Nat.pos_of_ne_zero fun h0 => hlen (UInt32.toNat_inj.mp h0)
  rw [titleBytes, List.length_append, List.length_take, List.length_singleton]
  omega

theorem titleLen_spec {bufLen : UInt32} (hlen : bufLen ≠ 0) (title : Bytes) :
    title.take (titleLen title bufLen) = title.take (bufLen.toNat - 1) ∧
      (title.take (titleLen title bufLen)).length = titleLen title bufLen ∧
      titleLen title bufLen + 1 ≤ bufLen.toNat := by
  have hpos : 0 < bufLen.toNat := Nat.pos_of_ne_zero fun h0 => hlen (UInt32.toNat_inj.mp h0)
  rw [List.take_eq_take_iff, List.length_take, titleLen]
  split
  · omega
  · omega

/-- `get_track_title_wrapper` with a buffer that is accepted. -/
theorem getTrackTitle_ok (hmemory : memory.length ≤ 2 ^ 32) {index : Int32} {bufLen : UInt32}
    (hindex : ¬ index < 0) (hlen : bufLen ≠ 0) (h : BufferAt memory o bufLen)
    (title : Option Bytes) :
    ∃ t, getTrackTitle index (some o) bufLen title (Guest.enter memory) =
        (.ok (if title.isSome then .ok else .notFound), t) ∧
      t.memory = overwrite memory o (titleBytes bufLen title) ∧ Confined t := by
  have hvalidate := validateGuestBufferFromNative_ok hmemory hlen h
  have hfits := length_titleBytes_le hlen title
  have hpos : 0 < bufLen.toNat := Nat.pos_of_ne_zero fun h0 => hlen (UInt32.toNat_inj.mp h0)
  obtain ⟨-, hend⟩ := h
  have hguard : ¬ (some o = none ∨ bufLen = 0 ∨ index < 0) := by
    rintro (hnone | hzero | hneg)
    · cases hnone
    · exact hlen hzero
    · exact hindex hneg
  -- Accesses of no more than the buffer are confined.
  have hconfined : ∀ (accesses : List Access) (m : Bytes),
      (∀ a ∈ accesses, a.pointer = ⟨some o, bufLen.toNat⟩ ∧ a.disp + a.length ≤ bufLen.toNat) →
      Confined ⟨m, [⟨o, bufLen.toNat⟩], accesses, []⟩ := by
    intro accesses m hall a ha
    obtain ⟨hpointer, hle⟩ := hall a ha
    refine ⟨by rw [hpointer]; exact hle, fun i hi => ⟨o, by rw [hpointer], ?_⟩⟩
    refine ⟨⟨o, bufLen.toNat⟩, List.mem_singleton_self _, ?_, ?_⟩
    · show o ≤ o + a.disp + i
      omega
    · show o + a.disp + i < o + bufLen.toNat
      omega
  unfold getTrackTitle
  rw [if_neg hguard]
  generalize hentered : ({ Guest.enter memory with validated := [⟨o, bufLen.toNat⟩] } : Guest) = s
    at hvalidate
  have hmem : s.memory = memory := by rw [← hentered]; rfl
  have hp : (Pointer.mk (some o) bufLen.toNat).native = some o := rfl
  cases title with
  | none =>
    have hstore := store_fits hp 0 [0] s (by
      rw [hmem, List.length_singleton]
      omega)
    refine ⟨_, (bind_of_ok hvalidate).trans ((bind_of_ok hstore).trans rfl), ?_, ?_⟩
    · rw [hmem, Nat.add_zero, titleBytes, Option.getD_none, List.take_nil, List.nil_append]
    · rw [← hentered]
      refine hconfined _ _ fun a ha => ?_
      cases List.mem_singleton.mp ha
      exact ⟨rfl, by show 0 + 1 ≤ bufLen.toNat; omega⟩
  | some title =>
    obtain ⟨htake, htitle, hroom⟩ := titleLen_spec hlen title
    have hfirst := store_fits hp 0 (title.take (titleLen title bufLen)) s (by
      rw [hmem, htitle]
      omega)
    rw [hmem, Nat.add_zero] at hfirst
    rw [htitle] at hfirst
    generalize hstored : ({ s with
      memory := overwrite memory o (title.take (titleLen title bufLen))
      accesses := s.accesses ++ [⟨⟨some o, bufLen.toNat⟩, 0, titleLen title bufLen⟩] } : Guest)
      = t at hfirst
    have htmem : t.memory = overwrite memory o (title.take (titleLen title bufLen)) := by
      rw [← hstored]
    have htlen : t.memory.length = memory.length := by
      rw [htmem, length_overwrite]
      rw [htitle]
      omega
    have hsecond := store_fits hp (titleLen title bufLen) [0] t (by
      rw [htlen, List.length_singleton]
      omega)
    refine ⟨_, (bind_of_ok hvalidate).trans ((bind_of_ok hfirst).trans
      ((bind_of_ok hsecond).trans rfl)), ?_, ?_⟩
    · have hstart : o ≤ memory.length := by omega
      have happend := overwrite_append hstart (title.take (titleLen title bufLen)) [0]
      rw [htitle] at happend
      rw [htmem, happend, htake]
      rfl
    · rw [← hstored, ← hentered]
      refine hconfined _ _ fun a ha => ?_
      rcases List.mem_append.mp ha with ha | ha
      · cases List.mem_singleton.mp ha
        exact ⟨rfl, by dsimp only; omega⟩
      · cases List.mem_singleton.mp ha
        exact ⟨rfl, by rw [List.length_singleton]; exact hroom⟩

theorem getTrackTitle_error {index : Int32} {buf : Option Nat} {bufLen : UInt32}
    (title : Option Bytes)
    (h : ¬ (¬ index < 0 ∧ bufLen ≠ 0 ∧ ∃ o, buf = some o ∧ BufferAt memory o bufLen)) :
    ∃ err, getTrackTitle index buf bufLen title (Guest.enter memory) =
      (.error err, Guest.enter memory) := by
  unfold getTrackTitle
  split
  · exact ⟨.inval, rfl⟩
  · next hguard =>
    obtain ⟨hbuf, hlen, hindex⟩ := not_or.mp hguard |>.imp id not_or.mp
    obtain ⟨o, rfl⟩ := Option.ne_none_iff_exists'.mp hbuf
    have hbad : ¬ BufferAt memory o bufLen := fun hat => h ⟨hindex, hlen, o, rfl, hat⟩
    obtain ⟨err, herr⟩ := validateGuestBufferFromNative_error hlen hbad
    exact ⟨err, bind_of_error herr⟩

theorem logMessage_ok (hmemory : memory.length ≤ 2 ^ 32) (h : StringAt memory o) :
    ∃ t, logMessage (some o) (Guest.enter memory) = (.ok (cstring memory o), t) ∧
      t.memory = memory ∧ Confined t := by
  refine ⟨_, (bind_of_ok (validateGuestStringFromNative_ok hmemory h)).trans rfl, rfl, ?_⟩
  intro a ha
  cases List.mem_singleton.mp ha
  refine ⟨Nat.le_of_eq (Nat.zero_add _), fun i hi => ⟨o, rfl, ?_⟩⟩
  have hi : i < (cstring memory o).length + 1 := hi
  refine ⟨⟨o, (cstring memory o).length + 1⟩, List.mem_singleton_self _, ?_, ?_⟩
  · show o ≤ o + 0 + i
    omega
  · show o + 0 + i < o + ((cstring memory o).length + 1)
    omega

theorem logMessage_error (hmemory : memory.length ≤ 2 ^ 32) {message : Option Nat}
    (h : ¬ ∃ o, message = some o ∧ StringAt memory o) :
    ∃ err, logMessage message (Guest.enter memory) = (.error err, Guest.enter memory) := by
  cases message with
  | none => exact ⟨.inval, rfl⟩
  | some o =>
    have hbad : ¬ StringAt memory o := fun hat => h ⟨o, rfl, hat⟩
    obtain ⟨err, herr⟩ := validateGuestStringFromNative_error hmemory hbad
    exact ⟨err, bind_of_error herr⟩

/-- Nothing is accessed before anything is. -/
theorem confined_enter (memory : Bytes) : Confined (Guest.enter memory) :=
  fun _ ha => absurd ha List.not_mem_nil

end

/-- What a call of `log` does with a pointer of the script. -/
structure LogCall (memory : Bytes) (message : Option Nat) : Prop where
  confined : Confined (logMessage message (Guest.enter memory)).2
  unchanged : (logMessage message (Guest.enter memory)).2.memory = memory
  reads : ∀ text, (logMessage message (Guest.enter memory)).1 = .ok text ↔
    ∃ o, message = some o ∧ StringAt memory o ∧ text = cstring memory o

/-- What a call of `get_track_title` does with a buffer of the script. -/
structure TitleCall (memory : Bytes) (index : Int32) (buf : Option Nat) (bufLen : UInt32)
    (title : Option Bytes) : Prop where
  confined : Confined (getTrackTitle index buf bufLen title (Guest.enter memory)).2
  refused : ¬ (¬ index < 0 ∧ bufLen ≠ 0 ∧ ∃ o, buf = some o ∧ BufferAt memory o bufLen) →
    (∃ err, (getTrackTitle index buf bufLen title (Guest.enter memory)).1 = .error err) ∧
      (getTrackTitle index buf bufLen title (Guest.enter memory)).2.memory = memory
  /-- Only the buffer changes, and it then holds the longest beginning of the title that
  fits, or an empty string. -/
  filled : ∀ o, buf = some o → ¬ index < 0 → bufLen ≠ 0 → BufferAt memory o bufLen →
    (getTrackTitle index buf bufLen title (Guest.enter memory)).1 =
        .ok (if title.isSome then .ok else .notFound) ∧
      (∀ i, ¬ (o ≤ i ∧ i < o + bufLen.toNat) →
        (getTrackTitle index buf bufLen title (Guest.enter memory)).2.memory[i]? = memory[i]?) ∧
      (0 ∉ title.getD [] →
        cstring (getTrackTitle index buf bufLen title (Guest.enter memory)).2.memory o =
          (title.getD []).take (bufLen.toNat - 1))

/-- **The natives that take pointers** of a script touch nothing but what they have
validated in its memory, whatever the pointers and lengths are: `log` reads exactly the
string, and `get_track_title` writes nothing outside the buffer. -/
theorem natives_confined {memory : Bytes} (hmemory : memory.length ≤ 2 ^ 32) :
    (∀ message, LogCall memory message) ∧
      ∀ index buf bufLen title, TitleCall memory index buf bufLen title := by
  refine ⟨fun message => ?_, fun index buf bufLen title => ?_⟩
  · by_cases hat : ∃ o, message = some o ∧ StringAt memory o
    · obtain ⟨o, rfl, hat⟩ := hat
      obtain ⟨t, hrun, hmem, hconfined⟩ := logMessage_ok hmemory hat
      refine ⟨by rw [hrun]; exact hconfined, by rw [hrun]; exact hmem, fun text => ?_⟩
      rw [hrun]
      constructor
      · intro h
        exact ⟨o, rfl, hat, (Except.ok.inj h).symm⟩
      · rintro ⟨o', ho, -, rfl⟩
        cases ho
        rfl
    · obtain ⟨err, hrun⟩ := logMessage_error hmemory hat
      refine ⟨by rw [hrun]; exact confined_enter memory, by rw [hrun]; rfl, fun text => ?_⟩
      rw [hrun]
      constructor
      · intro h
        cases h
      · rintro ⟨o, rfl, hstring, -⟩
        exact absurd ⟨o, rfl, hstring⟩ hat
  · by_cases haccepted : ¬ index < 0 ∧ bufLen ≠ 0 ∧ ∃ o, buf = some o ∧ BufferAt memory o bufLen
    · obtain ⟨hindex, hlen, o, rfl, hat⟩ := haccepted
      obtain ⟨t, hrun, hmem, hconfined⟩ := getTrackTitle_ok hmemory hindex hlen hat title
      have hbytes := length_titleBytes_le hlen title
      refine ⟨by rw [hrun]; exact hconfined,
        fun hrefused => absurd ⟨hindex, hlen, o, rfl, hat⟩ hrefused, ?_⟩
      rintro o' ho - - -
      cases ho
      rw [hrun]
      dsimp only
      rw [hmem]
      refine ⟨rfl, fun i hout => ?_, fun hzero => ?_⟩
      · obtain ⟨-, hend⟩ := hat
        by_cases hi : i < memory.length
        · rw [getElem?_overwrite _ hi, if_neg (by omega)]
        · rw [List.getElem?_eq_none, List.getElem?_eq_none (Nat.not_lt.mp hi)]
          rw [length_overwrite (by omega)]
          exact Nat.not_lt.mp hi
      · have hstart : o ≤ memory.length := Nat.le_trans (Nat.le_add_right ..) hat.2
        have htake : (memory.take o).length = o := by
          rw [List.length_take, Nat.min_eq_left hstart]
        rw [cstring, overwrite_of_le hstart, List.drop_left' htake, titleBytes, List.append_assoc]
        exact takeWhile_append_zero (notMem_take hzero _) _
    · obtain ⟨err, hrun⟩ := getTrackTitle_error title haccepted
      refine ⟨by rw [hrun]; exact confined_enter memory, fun _ => ?_, ?_⟩
      · rw [hrun]
        exact ⟨⟨err, rfl⟩, rfl⟩
      · intro o hbuf hindex hlen hat
        exact absurd ⟨hindex, hlen, o, hbuf, hat⟩ haccepted

theorem natives_confined_title :
    TitleCall [0, 104, 105, 0, 120, 120, 120] 0 (some 4) 3 (some [97, 98, 99]) ∧
      (getTrackTitle 0 (some 4) 3 (some [97, 98, 99])
        (Guest.enter [0, 104, 105, 0, 120, 120, 120])).2.memory = [0, 104, 105, 0, 97, 98, 0] := by
  have hsmall : [0, 104, 105, 0, 120, 120, (120 : UInt8)].length ≤ 2 ^ 32 := by decide
  exact ⟨(natives_confined hsmall).2 0 (some 4) 3 (some [97, 98, 99]), by decide⟩

/-! ## The transcript -/

/-- What a `log` passes on has no terminator in it. -/
theorem zero_notMem_logMessage {message : Option Nat} {s : Guest} {text : Bytes}
    (h : (logMessage message s).1 = .ok text) : 0 ∉ text := by
  unfold logMessage at h
  rcases hvalidate : validateGuestStringFromNative message s with ⟨r, t⟩
  cases r with
  | error err =>
    rw [bind_of_error hvalidate] at h
    cases h
  | ok p =>
    rw [bind_of_ok hvalidate] at h
    unfold loadString at h
    rw [bind_of_ok (get_apply t)] at h
    cases hp : p.native with
    | none =>
      rw [hp] at h
      cases h
      exact List.not_mem_nil
    | some o =>
      rw [hp] at h
      cases h
      intro hmem
      simpa using List.mem_takeWhile_imp hmem

/-- The log file holds what was meant for it, all of it when every write moved all it was
given. -/
structure Kept (file : LogFile) (logged : Bytes) (whole : Prop) : Prop where
  atEnd : AtEnd file
  sublist : file.content.Sublist logged
  whole : whole → file.content = logged

structure Follows (s : State) (memory said logged : Bytes) (whole : Prop) : Prop where
  memory : s.memory = memory
  output : Holds s.output said
  log : ∀ file, s.log = some file → Kept file logged whole

theorem Kept.add {file file' : LogFile} {logged part piece : Bytes} {whole whole' : Prop}
    (h : Kept file logged whole) (hadds : Adds file file' part) (hpart : part.Sublist piece)
    (hwhole : whole' → part = piece) : Kept file' (logged ++ piece) (whole ∧ whole') where
  atEnd := hadds.atEnd
  sublist := by
    rw [hadds.content]
    exact h.sublist.append hpart
  whole := fun ⟨hbefore, hnow⟩ => by rw [hadds.content, h.whole hbefore, hwhole hnow]

theorem Kept.nothing {file : LogFile} {logged : Bytes} {whole whole' : Prop}
    (h : Kept file logged whole) : Kept file (logged ++ []) (whole ∧ whole') where
  atEnd := h.atEnd
  sublist := by
    rw [List.append_nil]
    exact h.sublist
  whole := fun hboth => by rw [List.append_nil, h.whole hboth.1]

theorem zero_notMem_logPrefix : 0 ∉ logPrefix := by decide

/-- **What one event adds.** -/
theorem follows_step {s : State} {memory said logged : Bytes} {whole : Prop} (event : Event)
    (h : Follows s memory said logged whole) :
    ∃ t, s.step event = some t ∧ Follows t (event.after memory) (said ++ event.said memory)
      (logged ++ event.logged memory) (whole ∧ event.Whole memory) := by
  obtain rfl := h.memory
  cases event with
  | compute memory' =>
    refine ⟨_, rfl, rfl, ?_, fun file hfile => (h.log file hfile).nothing⟩
    rw [Event.said, List.append_nil]
    exact h.output
  | log message moved =>
    cases hmessage : (logMessage message (Guest.enter s.memory)).1 with
    | error err =>
      have hsaid : Event.said s.memory (.log message moved) = [] := by
        rw [Event.said]
        simp only [hmessage]
      refine ⟨s, by simp only [State.step, hmessage], rfl, ?_, fun file hfile => ?_⟩
      · rw [hsaid, List.append_nil]
        exact h.output
      · rw [Event.logged, hsaid]
        exact (h.log file hfile).nothing
    | ok text =>
      have htext := zero_notMem_logMessage hmessage
      have hsaid : Event.said s.memory (.log message moved) = line text := by
        rw [Event.said]
        simp only [hmessage]
      obtain ⟨o₁, h₁, hold₁⟩ := appendResultOutput_spec h.output zero_notMem_logPrefix
      obtain ⟨o₂, h₂, hold₂⟩ := appendResultOutput_spec hold₁ htext
      obtain ⟨o₃, h₃, hold₃⟩ := appendResultOutput_spec hold₂ (show 0 ∉ [newline] by decide)
      refine ⟨{ s with output := o₃, log := s.log.map (logToFile moved text) }, ?_, rfl, ?_, ?_⟩
      · simp only [State.step, hmessage, h₁, h₂, h₃, Option.bind_eq_bind, Option.bind_some,
          Option.pure_def]
      · rw [hsaid, line, ← List.append_assoc, ← List.append_assoc]
        exact hold₃
      · intro file' hfile'
        obtain ⟨file, hfile, rfl⟩ := Option.map_eq_some_iff.mp hfile'
        have hkept := h.log file hfile
        obtain ⟨part, hadds, hpart, hwhole⟩ := logToFile_spec moved text hkept.atEnd
        rw [Event.logged, hsaid]
        exact hkept.add hadds hpart fun hall => hwhole (hall text hmessage)
  | printf text moved =>
    refine ⟨_, rfl, rfl, ?_, fun file' hfile' => ?_⟩
    · rw [Event.said, List.append_nil]
      exact h.output
    · obtain ⟨file, hfile, rfl⟩ := Option.map_eq_some_iff.mp hfile'
      have hkept := h.log file hfile
      obtain ⟨part, hadds, hpart, hwhole⟩ := printfToFile_spec moved text hkept.atEnd
      exact hkept.add hadds hpart hwhole
  | getTrackTitle index buf bufLen title =>
    refine ⟨_, rfl, rfl, ?_, fun file hfile => (h.log file hfile).nothing⟩
    rw [Event.said, List.append_nil]
    exact h.output

theorem follows_run {s : State} {memory said logged : Bytes} {whole : Prop} (events : List Event)
    (h : Follows s memory said logged whole) :
    ∃ t, s.run events = some t ∧ Holds t.output (said ++ saidBy memory events) ∧
      ∀ file, t.log = some file →
        Kept file (logged ++ loggedBy memory events) (whole ∧ AllWhole memory events) := by
  induction events generalizing s memory said logged whole with
  | nil =>
    refine ⟨s, rfl, ?_, fun file hfile => (h.log file hfile).nothing⟩
    rw [saidBy, List.append_nil]
    exact h.output
  | cons event events ih =>
    obtain ⟨t, hstep, hfollows⟩ := follows_step event h
    obtain ⟨u, hrun, houtput, hlog⟩ := ih hfollows
    refine ⟨u, by rw [State.run, hstep, Option.bind_some, hrun], ?_, fun file hfile => ?_⟩
    · rw [saidBy, ← List.append_assoc]
      exact houtput
    · have hkept := hlog file hfile
      rw [List.append_assoc] at hkept
      exact ⟨hkept.atEnd, hkept.sublist, fun hboth => hkept.whole ⟨⟨hboth.1, hboth.2.1⟩, hboth.2.2⟩⟩

theorem follows_start (memory : Bytes) (hasLog : Bool) :
    Follows (.start memory hasLog) memory [] [] True where
  memory := rfl
  output := holds_start
  log file hfile := by
    cases hasLog with
    | false => cases hfile
    | true =>
      cases hfile
      exact ⟨rfl, List.Sublist.refl _, fun _ => rfl⟩

/-- What `script_trim_log_fd` leaves of a log that it trims without an error. -/
theorem trimmed_of_complete {io : LogTrim.Io} {logFd : Int} {file after : LogFile}
    (hio : io.Complete logMaxSize) (hfd : 0 ≤ logFd)
    (h : trimLogFd io logFd file = (.ok, after)) :
    Trimmed logMaxSize file.content after.content := by
  obtain ⟨pos, htrim⟩ := LogTrim.trimLogFdTo_complete file hio hfd
  cases h.symm.trans htrim
  dsimp only
  split
  · next hfits => exact LogTrim.trimmed_of_le hfits
  · next hlong => exact LogTrim.kept_trimmed (Nat.not_le.mp hlong) LogTrim.logMaxSize_pos

/-- **The transcript of a script**: whatever a script computes, says and asks for, and
whatever the writes to its log file do, the output of its result never overflows and is the
beginning of what it said, up to 2047 bytes; the log file holds of what was meant for it
nothing else and nothing out of order, all of it when the writes were whole, and then what
is left of it when the run ends is a trimmed log of the whole. -/
theorem transcript_kept (memory : Bytes) (hasLog : Bool) (events : List Event) :
    ∃ t, (State.start memory hasLog).run events = some t ∧ t.output.length = maxOutputLen ∧
      t.output.takeWhile (· ≠ 0) = (saidBy memory events).take (maxOutputLen - 1) ∧
      ∀ file, t.log = some file → file.content.Sublist (loggedBy memory events) ∧
        (AllWhole memory events → file.content = loggedBy memory events ∧
          ∀ io logFd after, LogTrim.Io.Complete logMaxSize io → 0 ≤ logFd →
            trimLogFd io logFd file = (.ok, after) →
            Trimmed logMaxSize (loggedBy memory events) after.content) := by
  obtain ⟨t, hrun, houtput, hlog⟩ := follows_run events (follows_start memory hasLog)
  refine ⟨t, hrun, houtput.length, houtput.takeWhile_eq, fun file hfile => ?_⟩
  have hkept := hlog file hfile
  refine ⟨hkept.sublist, fun hwhole => ?_⟩
  have hcontent := hkept.whole ⟨trivial, hwhole⟩
  refine ⟨hcontent, fun io logFd after hio hfd htrim => ?_⟩
  have htrimmed := trimmed_of_complete hio hfd htrim
  rw [hcontent] at htrimmed
  exact htrimmed

end Jukeboy.Services.ScriptTranscript
