import Mathlib.Logic.Function.Basic
import Jukeboy.Base.Runs
import Jukeboy.Services.SocketEnv

/-! # The descriptors of a script

A wrapper passes the descriptor of the script on as it is, and no descriptor is kept for
the script. So a script acts on its own descriptors as long as it passes no others, and what
it has not closed stays open when its run ends. -/
namespace Jukeboy.Services.SocketEnv

open Jukeboy.Base Jukeboy.Base.Fallible Jukeboy.Base.Runs

/-! ## The descriptor of a call -/

/-- The descriptor an operation acts on. -/
def Operation.target : Operation → Option Int32
  | .socket .. => none
  | .close fd _ | .bind fd _ | .listen fd _ | .accept fd _ | .connect fd _ | .getsockname fd
  | .getpeername fd | .recv fd _ | .send fd _ | .recvfrom fd _ | .sendto fd .. | .setsockopt fd ..
  | .getsockopt fd _ => some fd

/-- The descriptor a script passes. -/
def HostCall.descriptor : HostCall → Option Int32
  | .sockOpen .. | .sockAddrResolve _ => none
  | .sockClose fd | .sockBind fd _ | .sockListen fd _ | .sockAccept fd .. | .sockConnect fd _
  | .sockAddrLocal fd _ | .sockAddrRemote fd _ | .sockRecv fd .. | .sockSend fd ..
  | .sockRecvFrom fd .. | .sockSendTo fd .. | .sockSetReuseAddr fd _ | .sockGetReuseAddr fd _
  | .sockSetBroadcast fd _ | .sockGetBroadcast fd _ | .sockSetRecvTimeout fd _
  | .sockSetSendTimeout fd _ | .sockSetRecvBufSize fd _ | .sockGetRecvBufSize fd _
  | .sockSetSendBufSize fd _ | .sockGetSendBufSize fd _ | .sockSetKeepAlive fd _
  | .sockGetKeepAlive fd _ | .sockSetTcpKeepIdle fd _ | .sockSetTcpKeepIntvl fd _
  | .sockSetTcpNoDelay fd _ | .sockGetTcpNoDelay fd _ => some fd

/-- At most one operation, on the descriptor `d`. -/
def AtMostOn (d : Option Int32) (l : List Operation) : Prop :=
  l = [] ∨ ∃ operation, l = [operation] ∧ operation.target = d

variable {net : Outcome} {d : Option Int32} {p : Pointer} {disp length : Nat} {bytes : Bytes}

theorem atMostOn_nil : AtMostOn d [] := .inl rfl

/-! ## What makes no call -/

/-- The program makes no call of the network stack on a descriptor or for one. -/
abbrev Quiet {α : Type} (x : Host α) : Prop := Silent Guest.operations x

/-- It makes at most one, on the descriptor `d`. -/
abbrev CallsOn {α : Type} (d : Option Int32) (x : Host α) : Prop :=
  Appends Guest.operations (AtMostOn d) x

theorem quiet_lend : Quiet (lend p disp length) :=
  silent_of_eq fun _ => rfl

theorem quiet_load : Quiet (load p disp length) :=
  quiet_lend.bind fun _ => silent_get.bind fun _ => silent_pure _

theorem quiet_put : Quiet (put p disp bytes) :=
  silent_of_eq fun _ => rfl

theorem quiet_store : Quiet (store p disp bytes) :=
  quiet_lend.bind fun _ => quiet_put

theorem quiet_storeWord {value : UInt32} : Quiet (storeWord p value) :=
  quiet_store

theorem quiet_check {α : Type} (r : Except Errno α) : Quiet (check r) := silent_lift _

theorem quiet_noteValidated (r : Range) : Quiet (noteValidated r) := silent_of_eq fun _ => rfl

theorem quiet_ite {α : Type} {c : Prop} [Decidable c] {x y : Host α} (hx : Quiet x) (hy : Quiet y) :
    Quiet (if c then x else y) := by
  split
  · exact hx
  · exact hy

theorem quiet_getGuestBuffer {offset size : UInt32} {allowNull : Bool} :
    Quiet (getGuestBuffer offset size allowNull) := by
  refine quiet_ite (quiet_ite (silent_pure _) (silent_fail _)) ?_
  refine silent_get.bind fun s => quiet_ite (silent_fail _) ?_
  exact (quiet_noteValidated _).bind fun _ => quiet_ite (silent_pure _) (silent_fail _)

theorem quiet_getGuestString {offset : UInt32} {allowNull : Bool} :
    Quiet (getGuestString offset allowNull) := by
  refine quiet_ite (quiet_ite (silent_pure _) (silent_fail _)) ?_
  refine silent_get.bind fun s => quiet_ite (silent_fail _) ?_
  exact (quiet_noteValidated _).bind fun _ => quiet_ite (silent_pure _) (silent_fail _)

theorem quiet_nativeToWasmAddr {source : SockAddr} :
    Quiet (nativeToWasmAddr source p disp) :=
  quiet_store.bind fun _ => silent_pure _

theorem quiet_receiveInto {len : UInt32} : Quiet (receiveInto net p len) :=
  quiet_lend.bind fun _ => quiet_put

theorem quiet_resolveHints : Quiet (resolveHints p) := by
  refine quiet_ite (quiet_load.bind fun _ => ?_) (silent_pure _)
  exact quiet_ite (silent_fail _) (quiet_ite (silent_fail _) (silent_pure _))

theorem quiet_loadString : Quiet (loadString p) := by
  refine silent_get.bind fun s => ?_
  split
  · exact quiet_lend.bind fun _ => silent_pure _
  · exact silent_pure _

theorem quiet_resolveName : Quiet (resolveName p) := by
  refine quiet_ite (quiet_load.bind fun _ => ?_) (silent_pure _)
  exact quiet_ite (quiet_loadString.bind fun _ => silent_pure _) (silent_pure _)

theorem quiet_copyResults {len : Nat} {results : List AddrInfo} {count : Nat} :
    Quiet (copyResults p len results count) := by
  induction results generalizing count with
  | nil => exact silent_pure _
  | cons entry rest ih =>
    refine quiet_ite ?_ (silent_pure _)
    split
    · exact ih
    · refine quiet_nativeToWasmAddr.bind fun stored => ?_
      exact quiet_ite (quiet_store.bind fun _ => ih) ih

theorem quiet_sockAddrResolve {a : ResolveArgs} : Quiet (sockAddrResolve net a) := by
  have hpointers : Quiet (resolvePointers a) :=
    quiet_getGuestString.bind fun _ => quiet_getGuestString.bind fun _ =>
      quiet_getGuestBuffer.bind fun _ => quiet_getGuestBuffer.bind fun _ =>
        quiet_getGuestBuffer.bind fun _ => silent_pure _
  have hquery (ps : ResolvePointers) : Quiet (resolveQuery net ps) :=
    quiet_storeWord.bind fun _ => quiet_resolveHints.bind fun _ =>
      quiet_resolveName.bind fun _ => quiet_resolveName.bind fun _ => silent_lift _
  exact hpointers.bind fun ps => (hquery ps).bind fun results =>
    quiet_copyResults.bind fun _ => quiet_storeWord

/-! ## What makes one -/

theorem callsOn_perform {operation : Operation} (h : operation.target = d) :
    CallsOn d (perform operation) := fun _ =>
  ⟨[operation], .inr ⟨operation, rfl, h⟩, rfl⟩

theorem callsOn_after {α β : Type} {x : Host α} {f : α → Host β} (hx : Quiet x)
    (hf : ∀ a, CallsOn d (f a)) : CallsOn d (x >>= f) := hx.then hf atMostOn_nil

theorem callsOn_call {operation : Operation} (h : operation.target = d) (r : Except Errno Unit) :
    CallsOn d (perform operation >>= fun _ => check r) :=
  (callsOn_perform h).bind fun _ => quiet_check r

theorem callsOn_answer {α : Type} {operation : Operation} (h : operation.target = d)
    (r : Except Errno α) (f : α → UInt32) :
    CallsOn d (do perform operation; let a ← check r; storeWord p (f a)) :=
  (callsOn_perform h).bind fun _ => (quiet_check r).bind fun _ => quiet_storeWord

theorem callsOn_sockOpen (poolFd family type : Int32) (fdOut : UInt32) :
    CallsOn none (sockOpen net poolFd family type fdOut) := by
  refine callsOn_after quiet_getGuestBuffer fun p => ?_
  split
  · exact appends_fail _ atMostOn_nil
  · split
    · exact appends_fail _ atMostOn_nil
    · exact appends_fail _ atMostOn_nil
    · exact callsOn_answer (by rfl) _ _

theorem callsOn_passAddr {addrOffset : UInt32} {operation : SockAddr → Operation}
    (h : ∀ name, (operation name).target = d) (r : Except Errno Unit) :
    CallsOn d (do
      let addr ← getGuestBuffer addrOffset 20 false
      let source ← load addr 0 addrSize
      match wasmToNativeAddr source with
      | none => fail .afNoSupport
      | some name =>
        perform (operation name)
        check r) := by
  refine callsOn_after quiet_getGuestBuffer fun p => callsOn_after quiet_load fun source => ?_
  split
  · exact appends_fail _ atMostOn_nil
  · exact callsOn_call (h _) r

theorem callsOn_sockAddrOf {operation : Operation} (h : operation.target = d) {offset : UInt32} :
    CallsOn d (sockAddrOf net operation offset) := by
  refine callsOn_after quiet_getGuestBuffer fun p => (callsOn_perform h).bind fun _ => ?_
  refine (quiet_check _).bind fun _ => quiet_nativeToWasmAddr.bind fun _ => ?_
  exact quiet_ite (silent_pure _) (silent_fail _)

theorem callsOn_getOption {option : SockOption} {fd : Int32} {offset : UInt32} (f : Int32 → UInt32) :
    CallsOn (some fd) (do
      let out ← getGuestBuffer offset 4 false
      let value ← getIntOpt net fd option
      storeWord out (f value)) := by
  refine callsOn_after quiet_getGuestBuffer fun p => Appends.bind ?_ fun _ => quiet_storeWord
  refine (callsOn_perform (by rfl)).bind fun _ => ?_
  exact (quiet_check _).bind fun _ => silent_pure _

theorem callsOn_wrapper (net : Outcome) (call : HostCall) :
    CallsOn call.descriptor (wrapper net call) := by
  cases call with
  | sockOpen poolFd family type fdOut => exact callsOn_sockOpen poolFd family type fdOut
  | sockClose => exact callsOn_call (by rfl) _
  | sockBind => exact callsOn_passAddr (fun _ => by rfl) _
  | sockListen => exact appends_guard atMostOn_nil (callsOn_call (by rfl) _)
  | sockAccept =>
    exact callsOn_after quiet_getGuestBuffer fun _ => appends_guard atMostOn_nil (callsOn_answer (by rfl) _ _)
  | sockConnect => exact callsOn_passAddr (fun _ => by rfl) _
  | sockAddrLocal => exact callsOn_sockAddrOf (by rfl)
  | sockAddrRemote => exact callsOn_sockAddrOf (by rfl)
  | sockAddrResolve => exact quiet_sockAddrResolve.appends atMostOn_nil
  | sockRecv =>
    refine callsOn_after quiet_getGuestBuffer fun _ => callsOn_after quiet_getGuestBuffer fun _ =>
      callsOn_after quiet_getGuestBuffer fun _ => callsOn_after quiet_receiveInto fun _ => ?_
    refine (callsOn_perform (by rfl)).bind fun _ => (quiet_check _).bind fun _ => ?_
    exact quiet_storeWord.bind fun _ => quiet_store
  | sockSend =>
    refine callsOn_after quiet_getGuestBuffer fun _ => callsOn_after quiet_getGuestBuffer fun _ =>
      callsOn_after quiet_lend fun _ => ?_
    exact callsOn_answer (by rfl) _ _
  | sockRecvFrom =>
    refine callsOn_after quiet_getGuestBuffer fun _ => callsOn_after quiet_getGuestBuffer fun _ =>
      callsOn_after quiet_getGuestBuffer fun _ => callsOn_after quiet_receiveInto fun _ => ?_
    refine (callsOn_perform (by rfl)).bind fun _ => (quiet_check _).bind fun _ => ?_
    exact quiet_nativeToWasmAddr.bind fun _ => quiet_ite quiet_storeWord (silent_fail _)
  | sockSendTo =>
    refine callsOn_after quiet_getGuestBuffer fun _ => callsOn_after quiet_getGuestBuffer fun _ =>
      callsOn_after quiet_getGuestBuffer fun _ => callsOn_after quiet_load fun _ => ?_
    split
    · exact appends_fail _ atMostOn_nil
    · exact callsOn_after quiet_lend fun _ => callsOn_answer (by rfl) _ _
  | sockSetReuseAddr | sockSetBroadcast | sockSetKeepAlive | sockSetTcpNoDelay =>
    exact callsOn_call (by rfl) _
  | sockGetReuseAddr | sockGetBroadcast | sockGetKeepAlive | sockGetTcpNoDelay
  | sockGetRecvBufSize | sockGetSendBufSize => exact callsOn_getOption _
  | sockSetRecvTimeout | sockSetSendTimeout | sockSetRecvBufSize | sockSetSendBufSize
  | sockSetTcpKeepIdle | sockSetTcpKeepIntvl =>
    exact appends_guard atMostOn_nil (callsOn_call (by rfl) _)

/-- The operations of a host call. -/
def HostCall.operations (net : Outcome) (call : HostCall) (memory : Bytes) : List Operation :=
  (callNative net call memory).2.operations

theorem operations_atMostOn (net : Outcome) (call : HostCall) (memory : Bytes) :
    AtMostOn call.descriptor (call.operations net memory) := by
  obtain ⟨l, hl, heq⟩ := callsOn_wrapper net call (.enter memory)
  rw [HostCall.operations, callNative_guest, heq]
  exact hl

/-! ## Runs of a script -/

inductive Owner where
  | script
  | log
  | service
deriving DecidableEq, Repr

/-- Who has opened which of the open descriptors, and which of them `sock_open` and
`sock_accept` have returned to the script and it has not closed since. -/
structure Descriptors where
  owner : Int32 → Option Owner
  own : List Int32
  logFd : Int32
  ended : Bool

/-- The log file of the run is open, and what other services have opened. -/
def Descriptors.initial (services : List Int32) (logFd : Int32) : Descriptors where
  owner fd := if fd = logFd then some .log else if fd ∈ services then some .service else none
  own := []
  logFd := logFd
  ended := false

/-- A descriptor that is handed out was free. -/
def Descriptors.open (s : Descriptors) (fd : Int32) (who : Owner) : Option Descriptors :=
  if s.owner fd = none then some { s with owner := Function.update s.owner fd (some who) } else none

def Descriptors.close (s : Descriptors) (fd : Int32) : Descriptors :=
  { s with owner := Function.update s.owner fd none }

/-- What an operation of the script does to the descriptors. -/
def Descriptors.perform (s : Descriptors) : Operation → Option Descriptors
  | .socket _ _ (.ok fd) | .accept _ (.ok fd) =>
    (s.open fd .script).map fun t => { t with own := fd :: t.own }
  | .close fd (.ok ()) => some { s.close fd with own := s.own.filter (· ≠ fd) }
  | _ => some s

inductive Action where
  /-- The script makes a host call; its memory is then as given. -/
  | call (net : Outcome) (call : HostCall) (memory : Bytes)
  | serviceOpens (fd : Int32)
  | serviceCloses (fd : Int32)
  /-- The run is over, normally or by a trap: `script_runner_task` goes on, and the log file
  is closed with the resources of the context. -/
  | finish

def step (s : Descriptors) : Action → Option Descriptors
  | .call net call memory =>
    if s.ended then none else (call.operations net memory).foldlM Descriptors.perform s
  | .serviceOpens fd => s.open fd .service
  | .serviceCloses fd => if s.owner fd = some .service then some (s.close fd) else none
  | .finish => if s.ended then none else some { s.close s.logFd with ended := true }

/-- The script passes no descriptor but one of its own. -/
def PassesOwn (s : Descriptors) : Action → Prop
  | .call _ call _ => ∀ fd, call.descriptor = some fd → fd ∈ s.own
  | _ => True

/-- At most one operation is made, on the descriptor that the script has passed. -/
def ActsAsPassed (_ : Descriptors) : Action → Prop
  | .call net call memory => AtMostOn call.descriptor (call.operations net memory)
  | _ => True

/-- Every operation is made on a descriptor of the script's own. -/
def ActsOnOwn (s : Descriptors) : Action → Prop
  | .call net call memory => ∀ operation ∈ call.operations net memory, ∀ fd,
      operation.target = some fd → fd ∈ s.own ∧ s.owner fd = some .script
  | _ => True

structure Inv (s : Descriptors) : Prop where
  own : ∀ fd, s.owner fd = some .script ↔ fd ∈ s.own
  log : s.ended = false → s.owner s.logFd = some .log

theorem inv_initial (services : List Int32) (logFd : Int32) :
    Inv (.initial services logFd) where
  own fd := by
    simp only [Descriptors.initial, List.not_mem_nil, iff_false]
    split
    · simp
    · split
      · simp
      · simp
  log _ := if_pos rfl

variable {s t : Descriptors}

theorem Descriptors.open_eq_some {fd : Int32} {who : Owner} (h : s.open fd who = some t) :
    s.owner fd = none ∧ t = { s with owner := Function.update s.owner fd (some who) } := by
  unfold Descriptors.open at h
  split at h
  · exact ⟨‹_›, (Option.some.inj h).symm⟩
  · cases h

theorem Inv.openScript {fd : Int32} (h : Inv s) (ht : s.open fd .script = some t) :
    Inv { t with own := fd :: t.own } := by
  obtain ⟨hfree, rfl⟩ := Descriptors.open_eq_some ht
  constructor
  · intro fd'
    rw [List.mem_cons, ← h.own fd']
    by_cases heq : fd' = fd
    · simp [heq]
    · simp [heq]
  · intro hrunning
    have hlog := h.log hrunning
    have hne : s.logFd ≠ fd := fun heq => by rw [heq, hfree] at hlog; cases hlog
    simpa [hne] using hlog

theorem Inv.closeOwn {fd : Int32} (h : Inv s) (hfd : fd ∈ s.own) :
    Inv { s.close fd with own := s.own.filter (· ≠ fd) } := by
  constructor
  · intro fd'
    rw [List.mem_filter, ← h.own fd']
    by_cases heq : fd' = fd
    · simp [Descriptors.close, heq]
    · simp [Descriptors.close, heq]
  · intro hrunning
    have hlog : s.owner s.logFd = some .log := h.log hrunning
    have hne : s.logFd ≠ fd := fun heq => by
      rw [heq, (h.own fd).mpr hfd] at hlog
      cases hlog
    change Function.update s.owner fd none s.logFd = some .log
    rw [Function.update_of_ne hne, hlog]

/-- What does not touch the script's descriptors or the log. -/
theorem Inv.other {owner : Int32 → Option Owner} (h : Inv s)
    (hscript : ∀ fd, owner fd = some .script ↔ s.owner fd = some .script)
    (hlog : s.owner s.logFd = some .log → owner s.logFd = some .log) :
    Inv { s with owner } where
  own fd := (hscript fd).trans (h.own fd)
  log hrunning := hlog (h.log hrunning)

theorem inv_perform {operation : Operation} (h : Inv s)
    (hown : ∀ fd, operation.target = some fd → fd ∈ s.own) (ht : s.perform operation = some t) :
    Inv t := by
  unfold Descriptors.perform at ht
  split at ht
  · obtain ⟨u, hu, rfl⟩ := Option.map_eq_some_iff.mp ht
    exact h.openScript hu
  · obtain ⟨u, hu, rfl⟩ := Option.map_eq_some_iff.mp ht
    exact h.openScript hu
  · cases ht
    exact h.closeOwn (hown _ rfl)
  · cases ht
    exact h

theorem inv_step (s : Descriptors) (a : Action) (t : Descriptors) (h : Inv s)
    (ha : PassesOwn s a) (ht : step s a = some t) : Inv t := by
  cases a with
  | call net call memory =>
    simp only [step, Option.ite_none_left_eq_some] at ht
    obtain ⟨-, ht⟩ := ht
    obtain hops | ⟨operation, hops, htarget⟩ := operations_atMostOn net call memory
    · rw [hops] at ht
      cases ht
      exact h
    · rw [hops, List.foldlM_cons, Option.bind_eq_bind] at ht
      obtain ⟨u, hu, ht⟩ := Option.bind_eq_some_iff.mp ht
      cases ht
      exact inv_perform h (fun fd hfd => ha fd (htarget.symm.trans hfd)) hu
  | serviceOpens fd =>
    obtain ⟨hfree, rfl⟩ := Descriptors.open_eq_some ht
    refine h.other (fun fd' => ?_) fun hlog => ?_
    · by_cases heq : fd' = fd
      · simp [heq, hfree]
      · simp [heq]
    · have hne : s.logFd ≠ fd := fun heq => by rw [heq, hfree] at hlog; cases hlog
      rw [Function.update_of_ne hne, hlog]
  | serviceCloses fd =>
    simp only [step, Option.ite_none_right_eq_some, Option.some.injEq] at ht
    obtain ⟨hservice, rfl⟩ := ht
    refine h.other (fun fd' => ?_) fun hlog => ?_
    · by_cases heq : fd' = fd
      · simp [heq, hservice]
      · simp [heq]
    · have hne : s.logFd ≠ fd := fun heq => by rw [heq, hservice] at hlog; cases hlog
      rw [Function.update_of_ne hne, hlog]
  | finish =>
    simp only [step, Option.ite_none_left_eq_some, Option.some.injEq] at ht
    obtain ⟨hrunning, rfl⟩ := ht
    have hlog := h.log (Bool.eq_false_iff.mpr hrunning)
    refine ⟨fun fd => ?_, fun hended => by cases hended⟩
    refine Iff.trans ?_ (h.own fd)
    by_cases heq : fd = s.logFd
    · simp [Descriptors.close, heq, hlog]
    · simp [Descriptors.close, heq]

theorem actsOnOwn_of_passesOwn {a : Action} (h : Inv s) (ha : PassesOwn s a) : ActsOnOwn s a := by
  cases a with
  | call net call memory =>
    intro operation hoperation fd hfd
    have htarget : operation.target = call.descriptor := by
      obtain hops | ⟨op, hops, htarget⟩ := operations_atMostOn net call memory
      · rw [hops] at hoperation
        cases hoperation
      · rw [hops, List.mem_singleton] at hoperation
        rw [hoperation, htarget]
    have hown : fd ∈ s.own := ha fd (htarget.symm.trans hfd)
    exact ⟨hown, (h.own fd).mpr hown⟩
  | serviceOpens | serviceCloses | finish => trivial

/-- **Descriptors.** Whatever a script calls, every operation is made on the descriptor it has
passed; so as long as it passes its own, every operation is made on one of its own, and the
descriptors it has open, at the end of the run as before, are those it has not closed. -/
theorem descriptors_as_passed (services : List Int32) (logFd : Int32) (as : List Action)
    {t : Descriptors} (ht : run step (.initial services logFd) as = some t) :
    Along step ActsAsPassed (.initial services logFd) as ∧
      (Along step PassesOwn (.initial services logFd) as →
        Along step ActsOnOwn (.initial services logFd) as ∧
          ∀ fd, t.owner fd = some .script ↔ fd ∈ t.own) := by
  have hinit := inv_initial services logFd
  refine ⟨along_iff.mpr fun _ a _ u _ _ => ?_, fun hC => ⟨?_, ?_⟩⟩
  · cases a with
    | call net call memory => exact operations_atMostOn net call memory
    | serviceOpens | serviceCloses | finish => trivial
  · exact along_of_invariant inv_step (fun _ _ hu ha => actsOnOwn_of_passesOwn hu ha) hinit hC
  · exact (run_invariant inv_step hinit hC ht).own

/-- The network stack hands descriptor 54 out. -/
def handsOut : Outcome where
  fd := .ok 54
  done := .ok ()
  length := .ok 0
  data := []
  name := .other
  value := 0
  results := .ok []

def guestMemory : Bytes := List.replicate 32 0

/-- A script opens a socket, listens on it, and its run ends. -/
def opensAndEnds : List Action :=
  [.call handsOut (.sockOpen 0 1 2 8) guestMemory, .call handsOut (.sockListen 54 1) guestMemory,
    .serviceOpens 55, .finish]

theorem descriptors_as_passed_opensAndEnds :
    ∃ t, run step (.initial [1] 3) opensAndEnds = some t ∧ t.ended = true ∧
      Along step ActsOnOwn (.initial [1] 3) opensAndEnds ∧
      ∀ fd, t.owner fd = some .script ↔ fd ∈ [54] := by
  have hC : Along step PassesOwn (.initial [1] 3) opensAndEnds := by
    refine ⟨fun fd hfd => (by cases hfd), fun s hs => ⟨fun fd hfd => ?_, fun u _ => ?_⟩⟩
    · cases hs
      cases hfd
      exact List.mem_singleton_self 54
    · exact ⟨trivial, fun _ _ => ⟨trivial, fun _ _ => trivial⟩⟩
  obtain ⟨hown, hopen⟩ := (descriptors_as_passed [1] 3 opensAndEnds rfl).2 hC
  exact ⟨_, rfl, rfl, hown, hopen⟩

/-- A script closes the log file of its run; and a run ends while its socket is open. -/
theorem descriptors_not_confined :
    (∃ t, run step (.initial [1] 3) [.call handsOut (.sockClose 3) guestMemory] = some t ∧
      ¬ Along step ActsOnOwn (.initial [1] 3) [.call handsOut (.sockClose 3) guestMemory]) ∧
    ∃ t, run step (.initial [1] 3) opensAndEnds = some t ∧ t.ended = true ∧
      t.owner 54 = some .script := by
  refine ⟨⟨_, rfl, fun h => ?_⟩, _, rfl, rfl, rfl⟩
  have hclose := h.1 (.close 3 (.ok ())) (List.mem_singleton_self _) 3 rfl
  exact absurd hclose.1 List.not_mem_nil

end Jukeboy.Services.SocketEnv
