import Jukeboy.Base.ByteFile
import Jukeboy.Base.Fallible
import Jukeboy.Base.LittleEndian

/-! # The socket host calls of a script

What the natives of `s_socket_symbols` do with the arguments of a script. A script passes
offsets into its linear memory; a wrapper turns them into pointers, makes one call of the
network stack and leaves what that call returned behind the pointers. -/
namespace Jukeboy.Services.SocketEnv

open Jukeboy.Base Jukeboy.Base.ByteFile Jukeboy.Base.Fallible

abbrev Bytes := List UInt8

/-! ## Errors -/

inductive Errno where
  | none | acces | addrInUse | addrNotAvail | afNoSupport | again | already | badF | connAborted
  | connRefused | connReset | destAddrReq | fault | hostUnreach | inProgress | intr | inval | io
  | isConn | msgSize | netDown | netReset | netUnreach | noBufs | noEnt | noMem | noProtoOpt
  | notConn | notSock | notSup | perm | pipe | proto | protoNoSupport | protoType | range
  | timedOut | other
deriving DecidableEq, Repr

/-- The `WASI_` constants. -/
inductive Wasi where
  | success | acces | addrInUse | addrNotAvail | afNoSupport | again | already | badF
  | connAborted | connRefused | connReset | destAddrReq | fault | hostUnreach | inProgress | intr
  | inval | io | isConn | msgSize | netDown | netReset | netUnreach | noBufs | noEnt | noMem
  | noProtoOpt | notConn | notSock | notSup | perm | pipe | proto | protoNoSupport | protoType
  | range | timedOut
deriving DecidableEq, Repr

def Wasi.code : Wasi → UInt16
  | success => 0 | acces => 2 | addrInUse => 3 | addrNotAvail => 4 | afNoSupport => 5 | again => 6
  | already => 7 | badF => 8 | connAborted => 13 | connRefused => 14 | connReset => 15
  | destAddrReq => 17 | fault => 21 | hostUnreach => 23 | inProgress => 26 | intr => 27
  | inval => 28 | io => 29 | isConn => 30 | msgSize => 35 | netDown => 38 | netReset => 39
  | netUnreach => 40 | noBufs => 42 | noEnt => 44 | noMem => 48 | noProtoOpt => 50 | notConn => 53
  | notSock => 57 | notSup => 58 | perm => 63 | pipe => 64 | proto => 65 | protoNoSupport => 66
  | protoType => 67 | range => 68 | timedOut => 73

/-- `script_socket_errno_to_wasi`. -/
def errnoToWasi : Errno → Wasi
  | .none => .success | .acces => .acces | .addrInUse => .addrInUse
  | .addrNotAvail => .addrNotAvail | .afNoSupport => .afNoSupport | .again => .again
  | .already => .already | .badF => .badF | .connAborted => .connAborted
  | .connRefused => .connRefused | .connReset => .connReset | .destAddrReq => .destAddrReq
  | .fault => .fault | .hostUnreach => .hostUnreach | .inProgress => .inProgress | .intr => .intr
  | .inval => .inval | .io => .io | .isConn => .isConn | .msgSize => .msgSize
  | .netDown => .netDown | .netReset => .netReset | .netUnreach => .netUnreach
  | .noBufs => .noBufs | .noEnt => .noEnt | .noMem => .noMem | .noProtoOpt => .noProtoOpt
  | .notConn => .notConn | .notSock => .notSock | .notSup => .notSup | .perm => .perm
  | .pipe => .pipe | .proto => .proto | .protoNoSupport => .protoNoSupport
  | .protoType => .protoType | .range => .range | .timedOut => .timedOut | .other => .io

/-- The `EAI_` constants. -/
inductive GaiError where
  | again | family | memory | noName | service | sockType | other
deriving DecidableEq, Repr

/-- `script_socket_gai_to_wasi`. -/
def gaiToWasi : GaiError → Wasi
  | .again => .again | .family => .afNoSupport | .memory => .noMem | .noName => .noEnt
  | .service => .protoNoSupport | .sockType => .protoType | .other => .io

/-! ## The network stack -/

/-- `AF_` and `SOCK_` constants. -/
inductive Family where
  | unspec | inet | inet6
deriving DecidableEq, Repr

inductive SockType where
  | any | dgram | stream
deriving DecidableEq, Repr

/-- A `struct sockaddr`, its address in network byte order. -/
inductive SockAddr where
  | inet (port : UInt16) (address : Bytes)
  | inet6 (port : UInt16) (address : Bytes)
  | other
deriving DecidableEq, Repr

/-- A `struct addrinfo`. -/
structure AddrInfo where
  addr : Option SockAddr
  sockType : Option SockType
deriving DecidableEq, Repr

inductive SockOption where
  | reuseAddr | broadcast | keepAlive | rcvTimeo | sndTimeo | rcvBuf | sndBuf
  | tcpKeepIdle | tcpKeepIntvl | tcpNoDelay
deriving DecidableEq, Repr

inductive OptionValue where
  | int (value : Int32)
  | timeval (sec usec : Int64)
deriving DecidableEq, Repr

/-- A call that a wrapper has made on a descriptor or for one. -/
inductive Operation where
  | socket (family : Family) (type : SockType) (fd : Except Errno Int32)
  | close (fd : Int32) (closed : Except Errno Unit)
  | bind (fd : Int32) (name : SockAddr)
  | listen (fd backlog : Int32)
  | accept (fd : Int32) (new : Except Errno Int32)
  | connect (fd : Int32) (name : SockAddr)
  | getsockname (fd : Int32)
  | getpeername (fd : Int32)
  | recv (fd flags : Int32)
  | send (fd flags : Int32)
  | recvfrom (fd flags : Int32)
  | sendto (fd flags : Int32) (name : SockAddr)
  | setsockopt (fd : Int32) (option : SockOption) (value : OptionValue)
  | getsockopt (fd : Int32) (option : SockOption)

/-- What the one call that a wrapper makes comes to: the descriptor or the length it returns,
and what it leaves in the buffer, the `sockaddr_storage`, the option or the list of results. -/
structure Outcome where
  fd : Except Errno Int32
  done : Except Errno Unit
  length : Except Errno UInt32
  data : Bytes
  name : SockAddr
  value : Int32
  results : Except GaiError (List AddrInfo)

/-! ## The guest -/

/-- A pointer the host has taken: NULL or an offset into the linear memory. How many bytes
have been validated for it the code does not keep. -/
structure Pointer where
  native : Option Nat
  validated : Nat
deriving DecidableEq, Repr

structure Range where
  start : Nat
  length : Nat
deriving DecidableEq, Repr

/-- The `length` bytes from `disp` on behind a pointer. -/
structure Access where
  pointer : Pointer
  disp : Nat
  length : Nat
deriving DecidableEq, Repr

/-- The linear memory of a script, and what a host call has validated, accessed and done. -/
structure Guest where
  memory : Bytes
  validated : List Range
  accesses : List Access
  operations : List Operation

/-- A host call begins. -/
def Guest.enter (memory : Bytes) : Guest := ⟨memory, [], [], []⟩

abbrev Host (α : Type) := Fallible Guest Wasi α

def Guest.touch (s : Guest) (p : Pointer) (disp length : Nat) : Guest :=
  { s with accesses := s.accesses ++ [⟨p, disp, length⟩] }

/-- The host, or what the host calls, may read or write some bytes behind a pointer. -/
def lend (p : Pointer) (disp length : Nat) : Host Unit := modify (·.touch p disp length)

def load (p : Pointer) (disp length : Nat) : Host Bytes := do
  lend p disp length
  let s ← get
  pure (match p.native with
    | some o => slice s.memory (o + disp) length
    | none => [])

/-- The memory with some bytes written behind a pointer. -/
def Pointer.write (p : Pointer) (disp : Nat) (bytes memory : Bytes) : Bytes :=
  match p.native with
  | some o => (overwrite memory (o + disp) bytes).take memory.length
  | none => memory

def put (p : Pointer) (disp : Nat) (bytes : Bytes) : Host Unit :=
  modify fun s => { s with memory := p.write disp bytes s.memory }

def store (p : Pointer) (disp : Nat) (bytes : Bytes) : Host Unit := do
  lend p disp bytes.length
  put p disp bytes

/-- The string at an offset, up to its terminator. -/
def cstring (memory : Bytes) (offset : Nat) : Bytes := (memory.drop offset).takeWhile (· ≠ 0)

/-- A string is read with its terminator. -/
def loadString (p : Pointer) : Host Bytes := do
  let s ← get
  match p.native with
  | some o =>
    lend p 0 ((cstring s.memory o).length + 1)
    pure (cstring s.memory o)
  | none => pure []

def perform (operation : Operation) : Host Unit :=
  modify fun s => { s with operations := s.operations ++ [operation] }

/-- `wasm_runtime_validate_app_addr`. -/
def validateAppAddr (memory : Bytes) (offset size : UInt32) : Bool :=
  offset.toNat + size.toNat ≤ memory.length

/-- `wasm_runtime_validate_app_str_addr`. -/
def validateAppStrAddr (memory : Bytes) (offset : UInt32) : Bool :=
  (memory.drop offset.toNat).contains 0

/-- `wasm_runtime_addr_app_to_native`. -/
def addrAppToNative (memory : Bytes) (offset : UInt32) : Option Nat :=
  if offset.toNat < memory.length then some offset.toNat else none

def noteValidated (r : Range) : Host Unit :=
  modify fun s => { s with validated := s.validated ++ [r] }

/-- `script_socket_get_guest_buffer`. -/
def getGuestBuffer (offset size : UInt32) (allowNull : Bool) : Host Pointer := do
  if offset = 0 then
    if allowNull then pure ⟨none, 0⟩ else fail .fault
  else
    let s ← get
    if 0 < size ∧ validateAppAddr s.memory offset size = false then fail .fault
    else
      noteValidated ⟨offset.toNat, size.toNat⟩
      let native := addrAppToNative s.memory offset
      if native.isSome ∨ size = 0 then pure ⟨native, size.toNat⟩ else fail .fault

/-- `script_socket_get_guest_string`. -/
def getGuestString (offset : UInt32) (allowNull : Bool) : Host Pointer := do
  if offset = 0 then
    if allowNull then pure ⟨none, 0⟩ else fail .fault
  else
    let s ← get
    if validateAppStrAddr s.memory offset = false then fail .fault
    else
      let size := (cstring s.memory offset.toNat).length + 1
      noteValidated ⟨offset.toNat, size⟩
      let native := addrAppToNative s.memory offset
      if native.isSome then pure ⟨native, size⟩ else fail .fault

/-! ## Conversions -/

/-- `script_socket_family_to_native`, `none` for -1. -/
def familyToNative (family : UInt8) : Option Family :=
  if family = 0 then some .unspec else if family = 1 then some .inet
  else if family = 2 then some .inet6 else none

/-- `script_socket_type_to_native`, `none` for -1. -/
def typeToNative (socketType : UInt8) : Option SockType :=
  if socketType = 0 then some .any else if socketType = 1 then some .dgram
  else if socketType = 2 then some .stream else none

/-- `script_socket_type_from_native`. -/
def typeFromNative : Option SockType → UInt8
  | some .dgram => 1
  | some .stream => 2
  | _ => 0

/-- `htons` or `ntohs` of each word. -/
def swapWords : Bytes → Bytes
  | a :: b :: rest => b :: a :: swapWords rest
  | rest => rest

/-- `sizeof(script_socket_addr_t)`. -/
def addrSize : Nat := 20

/-- `script_socket_wasm_to_native_addr` of the bytes of a `script_socket_addr_t`. -/
def wasmToNativeAddr (source : Bytes) : Option SockAddr :=
  let port := UInt16.ofNat (LittleEndian.leNat (slice source 2 2))
  if source.head? = some 1 then some (.inet port (slice source 4 4))
  else if source.head? = some 2 then some (.inet6 port (swapWords (slice source 4 16)))
  else none

/-- What `script_socket_native_to_wasm_addr` leaves in the `script_socket_addr_t`. -/
def encodeAddr : SockAddr → Bytes
  | .inet port address =>
    resize addrSize (1 :: 0 :: LittleEndian.leBytes 2 port.toNat ++ resize 4 address)
  | .inet6 port address =>
    resize addrSize (2 :: 0 :: LittleEndian.leBytes 2 port.toNat ++ resize 16 (swapWords address))
  | .other => List.replicate addrSize 0

def SockAddr.supported : SockAddr → Bool
  | .inet .. | .inet6 .. => true
  | .other => false

/-- `script_socket_native_to_wasm_addr`. The destination is cleared for every family. -/
def nativeToWasmAddr (source : SockAddr) (dest : Pointer) (disp : Nat) : Host Bool := do
  store dest disp (encodeAddr source)
  pure source.supported

def storeWord (p : Pointer) (value : UInt32) : Host Unit :=
  store p 0 (LittleEndian.leBytes 4 value.toNat)

/-- The error of a call of the network stack, which the wrapper returns. -/
def check {α : Type} (r : Except Errno α) : Host α := lift (r.mapError errnoToWasi)

/-! ## The wrappers -/

variable (net : Outcome)

def sockOpen (_poolFd familyRaw socketTypeRaw : Int32) (fdOutOffset : UInt32) : Host Unit := do
  let fdOut ← getGuestBuffer fdOutOffset 4 false
  match familyToNative familyRaw.toUInt32.toUInt8 with
  | none => fail .afNoSupport
  | some family =>
    match typeToNative socketTypeRaw.toUInt32.toUInt8 with
    | none | some .any => fail .protoType
    | some type =>
      perform (.socket family type net.fd)
      let fd ← check net.fd
      storeWord fdOut fd.toUInt32

def sockClose (fd : Int32) : Host Unit := do
  perform (.close fd net.done)
  check net.done

def sockBind (fd : Int32) (addrOffset : UInt32) : Host Unit := do
  let addr ← getGuestBuffer addrOffset 20 false
  let source ← load addr 0 addrSize
  match wasmToNativeAddr source with
  | none => fail .afNoSupport
  | some name =>
    perform (.bind fd name)
    check net.done

def sockListen (fd backlog : Int32) : Host Unit := do
  if backlog < 0 then fail .inval
  else
    perform (.listen fd backlog)
    check net.done

def sockAccept (fd flags : Int32) (fdOutOffset : UInt32) : Host Unit := do
  let fdOut ← getGuestBuffer fdOutOffset 4 false
  if flags ≠ 0 then fail .inval
  else
    perform (.accept fd net.fd)
    let new ← check net.fd
    storeWord fdOut new.toUInt32

def sockConnect (fd : Int32) (addrOffset : UInt32) : Host Unit := do
  let addr ← getGuestBuffer addrOffset 20 false
  let source ← load addr 0 addrSize
  match wasmToNativeAddr source with
  | none => fail .afNoSupport
  | some name =>
    perform (.connect fd name)
    check net.done

/-- What `sock_addr_local_wrapper` and `sock_addr_remote_wrapper` share. -/
def sockAddrOf (operation : Operation) (addrOffset : UInt32) : Host Unit := do
  let addr ← getGuestBuffer addrOffset 20 false
  perform operation
  check net.done
  let supported ← nativeToWasmAddr net.name addr 0
  if supported then pure () else fail .afNoSupport

def sockAddrLocal (fd : Int32) (addrOffset : UInt32) : Host Unit :=
  sockAddrOf net (.getsockname fd) addrOffset

def sockAddrRemote (fd : Int32) (addrOffset : UInt32) : Host Unit :=
  sockAddrOf net (.getpeername fd) addrOffset

structure ResolveArgs where
  hostOffset : UInt32
  serviceOffset : UInt32
  hintsOffset : UInt32
  addrInfoOffset : UInt32
  addrInfoLen : UInt32
  addrInfoCountOffset : UInt32
deriving DecidableEq, Repr

/-- `sizeof(script_socket_addr_info_t)`. -/
def addrInfoSize : Nat := 22

/-- `sizeof(*addr_info) * addr_info_len`, with a `size_t` of 32 bits. -/
def ResolveArgs.addrInfoBytes (a : ResolveArgs) : UInt32 := 22 * a.addrInfoLen

structure ResolvePointers where
  host : Pointer
  service : Pointer
  hints : Pointer
  addrInfo : Pointer
  countOut : Pointer

/-- The first part of `sock_addr_resolve_wrapper`: the pointers. -/
def resolvePointers (a : ResolveArgs) : Host ResolvePointers := do
  let host ← getGuestString a.hostOffset true
  let service ← getGuestString a.serviceOffset true
  let hints ← getGuestBuffer a.hintsOffset 2 true
  let addrInfo ← getGuestBuffer a.addrInfoOffset a.addrInfoBytes false
  let countOut ← getGuestBuffer a.addrInfoCountOffset 4 false
  pure ⟨host, service, hints, addrInfo, countOut⟩

/-- The hints, when there are any. -/
def resolveHints (hints : Pointer) : Host Unit := do
  if hints.native.isSome then
    let bytes ← load hints 0 2
    if familyToNative (bytes.getD 0 0) = none then fail .afNoSupport
    else if typeToNative (bytes.getD 1 0) = none then fail .protoType
    else pure ()
  else pure ()

/-- `host && host[0]`, and the string that `getaddrinfo` reads when so. -/
def resolveName (name : Pointer) : Host Unit := do
  if name.native.isSome then
    let first ← load name 0 1
    if first.getD 0 0 ≠ 0 then
      let _ ← loadString name
      pure ()
    else pure ()
  else pure ()

/-- The second part: the query. -/
def resolveQuery (p : ResolvePointers) : Host (List AddrInfo) := do
  storeWord p.countOut 0
  resolveHints p.hints
  resolveName p.host
  resolveName p.service
  lift (net.results.mapError gaiToWasi)

/-- The third part: the loop over the results. -/
def copyResults (addrInfo : Pointer) (len : Nat) : List AddrInfo → Nat → Host Nat
  | [], count => pure count
  | entry :: rest, count => do
    if count < len then
      match entry.addr with
      | none => copyResults addrInfo len rest count
      | some addr =>
        let stored ← nativeToWasmAddr addr addrInfo (addrInfoSize * count)
        if stored then
          store addrInfo (addrInfoSize * count + addrSize) [typeFromNative entry.sockType, 0]
          copyResults addrInfo len rest (count + 1)
        else copyResults addrInfo len rest count
    else pure count

def sockAddrResolve (a : ResolveArgs) : Host Unit := do
  let p ← resolvePointers a
  let results ← resolveQuery net p
  let count ← copyResults p.addrInfo a.addrInfoLen.toNat results 0
  storeWord p.countOut (UInt32.ofNat count)

/-- A buffer of the script, which may be NULL when it is empty. -/
def getDataBuffer (offset len : UInt32) : Host Pointer := getGuestBuffer offset len (len = 0)

/-- The network stack reads or fills a buffer it has been lent. -/
def receiveInto (buffer : Pointer) (len : UInt32) : Host Unit := do
  lend buffer 0 len.toNat
  put buffer 0 (net.data.take len.toNat)

def sockRecv (fd : Int32) (bufferOffset bufferLen : UInt32) (flags : Int32)
    (dataLenOutOffset roFlagsOutOffset : UInt32) : Host Unit := do
  let buffer ← getDataBuffer bufferOffset bufferLen
  let dataLenOut ← getGuestBuffer dataLenOutOffset 4 false
  let roFlagsOut ← getGuestBuffer roFlagsOutOffset 2 false
  receiveInto net buffer bufferLen
  perform (.recv fd flags)
  let received ← check net.length
  storeWord dataLenOut received
  store roFlagsOut 0 [0, 0]

def sockSend (fd : Int32) (bufferOffset bufferLen : UInt32) (flags : Int32)
    (dataLenOutOffset : UInt32) : Host Unit := do
  let buffer ← getDataBuffer bufferOffset bufferLen
  let dataLenOut ← getGuestBuffer dataLenOutOffset 4 false
  lend buffer 0 bufferLen.toNat
  perform (.send fd flags)
  let sent ← check net.length
  storeWord dataLenOut sent

def sockRecvFrom (fd : Int32) (bufferOffset bufferLen : UInt32) (flags : Int32)
    (addrOutOffset dataLenOutOffset : UInt32) : Host Unit := do
  let buffer ← getDataBuffer bufferOffset bufferLen
  let addrOut ← getGuestBuffer addrOutOffset 20 false
  let dataLenOut ← getGuestBuffer dataLenOutOffset 4 false
  receiveInto net buffer bufferLen
  perform (.recvfrom fd flags)
  let received ← check net.length
  let supported ← nativeToWasmAddr net.name addrOut 0
  if supported then storeWord dataLenOut received else fail .afNoSupport

def sockSendTo (fd : Int32) (bufferOffset bufferLen : UInt32) (flags : Int32)
    (addrOffset dataLenOutOffset : UInt32) : Host Unit := do
  let buffer ← getDataBuffer bufferOffset bufferLen
  let addr ← getGuestBuffer addrOffset 20 false
  let dataLenOut ← getGuestBuffer dataLenOutOffset 4 false
  let source ← load addr 0 addrSize
  match wasmToNativeAddr source with
  | none => fail .afNoSupport
  | some name =>
    lend buffer 0 bufferLen.toNat
    perform (.sendto fd flags name)
    let sent ← check net.length
    storeWord dataLenOut sent

/-! ## Options -/

/-- `script_socket_set_int_opt`. -/
def setIntOpt (fd : Int32) (option : SockOption) (value : Int32) : Host Unit := do
  perform (.setsockopt fd option (.int value))
  check net.done

/-- `script_socket_get_int_opt`. -/
def getIntOpt (fd : Int32) (option : SockOption) : Host Int32 := do
  perform (.getsockopt fd option)
  check net.done
  pure net.value

/-- `script_socket_set_timeout_opt`. -/
def setTimeoutOpt (fd : Int32) (option : SockOption) (timeoutUs : Int64) : Host Unit := do
  if timeoutUs < 0 then fail .inval
  else
    perform (.setsockopt fd option (.timeval (timeoutUs / 1000000) (timeoutUs % 1000000)))
    check net.done

/-- A wrapper that sets a flag. -/
def setFlag (option : SockOption) (fd enabled : Int32) : Host Unit :=
  setIntOpt net fd option (if enabled ≠ 0 then 1 else 0)

/-- A wrapper that sets a number that must not be negative. -/
def setSize (option : SockOption) (fd size : Int32) : Host Unit := do
  if size < 0 then fail .inval else setIntOpt net fd option size

/-- A wrapper that returns a flag. -/
def getFlag (option : SockOption) (fd : Int32) (enabledOutOffset : UInt32) : Host Unit := do
  let enabledOut ← getGuestBuffer enabledOutOffset 4 false
  let value ← getIntOpt net fd option
  storeWord enabledOut value.toUInt32

/-- A wrapper that returns a size. -/
def getSize (option : SockOption) (fd : Int32) (sizeOutOffset : UInt32) : Host Unit := do
  let sizeOut ← getGuestBuffer sizeOutOffset 4 false
  let value ← getIntOpt net fd option
  storeWord sizeOut (if value < 0 then 0 else value.toUInt32)

def sockSetReuseAddr := setFlag net .reuseAddr
def sockGetReuseAddr := getFlag net .reuseAddr
def sockSetBroadcast := setFlag net .broadcast
def sockGetBroadcast := getFlag net .broadcast
def sockSetRecvTimeout (fd : Int32) (timeoutUs : Int64) := setTimeoutOpt net fd .rcvTimeo timeoutUs
def sockSetSendTimeout (fd : Int32) (timeoutUs : Int64) := setTimeoutOpt net fd .sndTimeo timeoutUs
def sockSetRecvBufSize := setSize net .rcvBuf
def sockGetRecvBufSize := getSize net .rcvBuf
def sockSetSendBufSize := setSize net .sndBuf
def sockGetSendBufSize := getSize net .sndBuf
def sockSetKeepAlive := setFlag net .keepAlive
def sockGetKeepAlive := getFlag net .keepAlive
def sockSetTcpKeepIdle := setSize net .tcpKeepIdle
def sockSetTcpKeepIntvl := setSize net .tcpKeepIntvl
def sockSetTcpNoDelay := setFlag net .tcpNoDelay
def sockGetTcpNoDelay := getFlag net .tcpNoDelay

/-! ## The natives -/

/-- A call of one of `s_socket_symbols`. -/
inductive HostCall where
  | sockOpen (poolFd family socketType : Int32) (fdOut : UInt32)
  | sockClose (fd : Int32)
  | sockBind (fd : Int32) (addr : UInt32)
  | sockListen (fd backlog : Int32)
  | sockAccept (fd flags : Int32) (fdOut : UInt32)
  | sockConnect (fd : Int32) (addr : UInt32)
  | sockAddrLocal (fd : Int32) (addr : UInt32)
  | sockAddrRemote (fd : Int32) (addr : UInt32)
  | sockAddrResolve (args : ResolveArgs)
  | sockRecv (fd : Int32) (buffer bufferLen : UInt32) (flags : Int32)
      (dataLenOut roFlagsOut : UInt32)
  | sockSend (fd : Int32) (buffer bufferLen : UInt32) (flags : Int32) (dataLenOut : UInt32)
  | sockRecvFrom (fd : Int32) (buffer bufferLen : UInt32) (flags : Int32)
      (addrOut dataLenOut : UInt32)
  | sockSendTo (fd : Int32) (buffer bufferLen : UInt32) (flags : Int32) (addr dataLenOut : UInt32)
  | sockSetReuseAddr (fd enabled : Int32)
  | sockGetReuseAddr (fd : Int32) (enabledOut : UInt32)
  | sockSetBroadcast (fd enabled : Int32)
  | sockGetBroadcast (fd : Int32) (enabledOut : UInt32)
  | sockSetRecvTimeout (fd : Int32) (timeoutUs : Int64)
  | sockSetSendTimeout (fd : Int32) (timeoutUs : Int64)
  | sockSetRecvBufSize (fd size : Int32)
  | sockGetRecvBufSize (fd : Int32) (sizeOut : UInt32)
  | sockSetSendBufSize (fd size : Int32)
  | sockGetSendBufSize (fd : Int32) (sizeOut : UInt32)
  | sockSetKeepAlive (fd enabled : Int32)
  | sockGetKeepAlive (fd : Int32) (enabledOut : UInt32)
  | sockSetTcpKeepIdle (fd seconds : Int32)
  | sockSetTcpKeepIntvl (fd seconds : Int32)
  | sockSetTcpNoDelay (fd enabled : Int32)
  | sockGetTcpNoDelay (fd : Int32) (enabledOut : UInt32)
deriving DecidableEq, Repr

def wrapper : HostCall → Host Unit
  | .sockOpen poolFd family socketType fdOut => sockOpen net poolFd family socketType fdOut
  | .sockClose fd => sockClose net fd
  | .sockBind fd addr => sockBind net fd addr
  | .sockListen fd backlog => sockListen net fd backlog
  | .sockAccept fd flags fdOut => sockAccept net fd flags fdOut
  | .sockConnect fd addr => sockConnect net fd addr
  | .sockAddrLocal fd addr => sockAddrLocal net fd addr
  | .sockAddrRemote fd addr => sockAddrRemote net fd addr
  | .sockAddrResolve args => sockAddrResolve net args
  | .sockRecv fd buffer len flags dataLen roFlags => sockRecv net fd buffer len flags dataLen roFlags
  | .sockSend fd buffer len flags dataLen => sockSend net fd buffer len flags dataLen
  | .sockRecvFrom fd buffer len flags addr dataLen =>
    sockRecvFrom net fd buffer len flags addr dataLen
  | .sockSendTo fd buffer len flags addr dataLen => sockSendTo net fd buffer len flags addr dataLen
  | .sockSetReuseAddr fd enabled => sockSetReuseAddr net fd enabled
  | .sockGetReuseAddr fd enabledOut => sockGetReuseAddr net fd enabledOut
  | .sockSetBroadcast fd enabled => sockSetBroadcast net fd enabled
  | .sockGetBroadcast fd enabledOut => sockGetBroadcast net fd enabledOut
  | .sockSetRecvTimeout fd timeoutUs => sockSetRecvTimeout net fd timeoutUs
  | .sockSetSendTimeout fd timeoutUs => sockSetSendTimeout net fd timeoutUs
  | .sockSetRecvBufSize fd size => sockSetRecvBufSize net fd size
  | .sockGetRecvBufSize fd sizeOut => sockGetRecvBufSize net fd sizeOut
  | .sockSetSendBufSize fd size => sockSetSendBufSize net fd size
  | .sockGetSendBufSize fd sizeOut => sockGetSendBufSize net fd sizeOut
  | .sockSetKeepAlive fd enabled => sockSetKeepAlive net fd enabled
  | .sockGetKeepAlive fd enabledOut => sockGetKeepAlive net fd enabledOut
  | .sockSetTcpKeepIdle fd seconds => sockSetTcpKeepIdle net fd seconds
  | .sockSetTcpKeepIntvl fd seconds => sockSetTcpKeepIntvl net fd seconds
  | .sockSetTcpNoDelay fd enabled => sockSetTcpNoDelay net fd enabled
  | .sockGetTcpNoDelay fd enabledOut => sockGetTcpNoDelay net fd enabledOut

/-- The code that a script gets back, and the guest after the call. -/
def callNative (net : Outcome) (call : HostCall) (memory : Bytes) : UInt16 × Guest :=
  match wrapper net call (.enter memory) with
  | (.ok (), s) => (Wasi.success.code, s)
  | (.error e, s) => (e.code, s)

theorem callNative_guest (net : Outcome) (call : HostCall) (memory : Bytes) :
    (callNative net call memory).2 = (wrapper net call (.enter memory)).2 := by
  unfold callNative
  split
  all_goals
    rename_i hrun
    rw [hrun]

end Jukeboy.Services.SocketEnv
