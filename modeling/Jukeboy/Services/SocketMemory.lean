import Jukeboy.Base.ByteLayout
import Jukeboy.Services.SocketEnv

/-! # Host calls stay in the memory of the guest

Every access of a socket host call is to bytes that have been validated in that call, but
for the entries of `sock_addr_resolve`: their size is a product of 32 bits, and what is
validated is the product's remainder. -/
namespace Jukeboy.Services.SocketEnv

open Jukeboy.Base Jukeboy.Base.ByteFile Jukeboy.Base.ByteLayout Jukeboy.Base.Fallible

/-! ## What is claimed -/

/-- The byte at an offset lies in a range that has been validated. -/
def Guest.Valid (s : Guest) (i : Nat) : Prop :=
  ∃ r ∈ s.validated, r.start ≤ i ∧ i < r.start + r.length

structure Access.Confined (s : Guest) (a : Access) : Prop where
  /-- It does not go beyond what has been validated for its pointer. -/
  fits : a.disp + a.length ≤ a.pointer.validated
  valid : ∀ i < a.length, ∃ o, a.pointer.native = some o ∧ s.Valid (o + a.disp + i)

def Confined (s : Guest) : Prop := ∀ a ∈ s.accesses, a.Confined s

/-! ## Pointers -/

instance : Preorder Guest where
  le s t := s.validated ⊆ t.validated
  le_refl _ := List.Subset.refl _
  le_trans _ _ _ := List.Subset.trans

/-- What has been validated for the pointer has been. -/
def Pointer.Usable (p : Pointer) (s : Guest) : Prop :=
  p.validated = 0 ∨ ∃ o, p.native = some o ∧ ⟨o, p.validated⟩ ∈ s.validated

/-- The string behind the pointer, with its terminator, has been validated. -/
def Pointer.Terminated (p : Pointer) (memory : Bytes) : Prop :=
  ∀ o, p.native = some o → (cstring memory o).length + 1 ≤ p.validated

variable {s t : Guest} {p : Pointer} {disp length : Nat}

theorem Pointer.Usable.mono (h : p.Usable s) (hle : s ≤ t) : p.Usable t :=
  h.imp id fun ⟨o, ho, hr⟩ => ⟨o, ho, hle hr⟩

theorem Access.Confined.mono {a : Access} (h : a.Confined s) (hle : s ≤ t) : a.Confined t where
  fits := h.fits
  valid i hi := by
    obtain ⟨o, ho, r, hr, hin⟩ := h.valid i hi
    exact ⟨o, ho, r, hle hr, hin⟩

theorem Pointer.Usable.confined (h : p.Usable s) (hfits : disp + length ≤ p.validated) :
    Access.Confined s ⟨p, disp, length⟩ where
  fits := hfits
  valid i hi := by
    have hi : i < length := hi
    obtain h | ⟨o, ho, hr⟩ := h
    · omega
    · exact ⟨o, ho, _, hr, by simp only; omega, by simp only; omega⟩

/-- An access through a usable pointer, of no more than has been validated. -/
theorem Confined.touch (h : Confined s) (hp : p.Usable s) (hfits : disp + length ≤ p.validated) :
    Confined (s.touch p disp length) := by
  intro a ha
  obtain ha | ha := List.mem_append.mp ha
  · exact (h a ha).mono (List.Subset.refl _)
  · cases List.mem_singleton.mp ha
    exact (hp.confined hfits).mono (List.Subset.refl _)

/-! ## The primitives -/

theorem keeps_lend (h : Confined s) (hp : p.Usable s) (hfits : disp + length ≤ p.validated) :
    Keeps Confined s (lend p disp length) fun _ t => t.memory = s.memory :=
  keeps_modify (h.touch hp hfits) (List.Subset.refl _) rfl

theorem keeps_load (h : Confined s) (hp : p.Usable s) (hfits : disp + length ≤ p.validated) :
    Keeps Confined s (load p disp length) fun _ t => t.memory = s.memory := by
  refine (keeps_lend h hp hfits).bind fun _ t ht _ hmem => ?_
  refine (keeps_get ht).bind fun _ u hu _ hget => ?_
  obtain ⟨rfl, rfl⟩ := hget
  exact keeps_pure hu hmem

theorem keeps_put (h : Confined s) (bytes : Bytes) :
    Keeps Confined s (put p disp bytes) fun _ t => t.memory = p.write disp bytes s.memory :=
  keeps_modify (fun a ha => (h a ha).mono (List.Subset.refl _)) (List.Subset.refl _) rfl

theorem keeps_store {bytes : Bytes} (h : Confined s) (hp : p.Usable s)
    (hfits : disp + bytes.length ≤ p.validated) :
    Keeps Confined s (store p disp bytes) fun _ t => t.memory = p.write disp bytes s.memory := by
  refine (keeps_lend h hp hfits).bind fun _ t ht _ hmem => ?_
  rw [← hmem]
  exact keeps_put ht bytes

theorem keeps_storeWord (h : Confined s) (hp : p.Usable s) (hfits : p.validated = 4)
    (value : UInt32) : Keeps Confined s (storeWord p value) fun _ t =>
      t.memory = p.write 0 (LittleEndian.leBytes 4 value.toNat) s.memory :=
  keeps_store h hp (by rw [LittleEndian.length_leBytes, hfits])

theorem keeps_perform (h : Confined s) (operation : Operation) :
    Keeps Confined s (perform operation) fun _ _ => True :=
  keeps_modify (fun a ha => (h a ha).mono (List.Subset.refl _)) (List.Subset.refl _) trivial

theorem keeps_check {α : Type} (h : Confined s) (r : Except Errno α) :
    Keeps Confined s (check r) fun _ _ => True :=
  keeps_lift h fun _ _ => trivial

theorem keeps_noteValidated (h : Confined s) (r : Range) :
    Keeps Confined s (noteValidated r) fun _ t => r ∈ t.validated ∧ t.memory = s.memory := by
  have hle : s.validated ⊆ s.validated ++ [r] := List.subset_append_left ..
  refine keeps_modify (fun a ha => (h a ha).mono hle) hle ⟨?_, rfl⟩
  exact List.mem_append_right _ (List.mem_singleton_self r)

/-! ## Taking a pointer -/

/-- `script_socket_get_guest_buffer` does not return an error. -/
def BufferAccepted (memory : Bytes) (offset size : UInt32) (allowNull : Bool) : Prop :=
  if offset = 0 then allowNull = true else size = 0 ∨ validateAppAddr memory offset size = true

/-- `script_socket_get_guest_string` does not return an error for a string that may be NULL. -/
def StringAccepted (memory : Bytes) (offset : UInt32) : Prop :=
  offset = 0 ∨ validateAppStrAddr memory offset = true

/-- What a buffer pointer is good for. -/
structure Pointer.Buffer (p : Pointer) (offset size : UInt32) (s : Guest) : Prop where
  usable : p.Usable s
  native : size ≠ 0 → p.native = if offset = 0 then none else some offset.toNat
  validated : p.validated = if offset = 0 then 0 else size.toNat

theorem addrAppToNative_of_valid {memory : Bytes} {offset size : UInt32} (hsize : size ≠ 0)
    (h : validateAppAddr memory offset size = true) :
    addrAppToNative memory offset = some offset.toNat := by
  have hpos : 0 < size.toNat := Nat.pos_of_ne_zero fun h0 => hsize (UInt32.toNat_inj.mp h0)
  have hle : offset.toNat + size.toNat ≤ memory.length := of_decide_eq_true h
  exact if_pos (by omega)

theorem keeps_getGuestBuffer (h : Confined s) (offset size : UInt32) (allowNull : Bool) :
    Keeps Confined s (getGuestBuffer offset size allowNull) fun p t =>
      p.Buffer offset size t ∧ BufferAccepted s.memory offset size allowNull ∧
        t.memory = s.memory := by
  unfold getGuestBuffer BufferAccepted
  by_cases hoffset : offset = 0
  · simp only [hoffset, if_true]
    cases allowNull with
    | true => exact keeps_pure h ⟨⟨.inl rfl, fun _ => rfl, rfl⟩, rfl, rfl⟩
    | false => exact keeps_fail h
  · simp only [hoffset, if_false]
    refine (keeps_get h).bind fun _ t ht _ hget => ?_
    obtain ⟨rfl, rfl⟩ := hget
    refine keeps_guard ht fun hinvalid => ?_
    refine (keeps_noteValidated ht _).bind fun _ u hu _ hnoted => ?_
    have haccepted : size = 0 ∨ validateAppAddr t.memory offset size = true := by
      by_cases hsize : size = 0
      · exact .inl hsize
      · have hpos : 0 < size := UInt32.pos_iff_ne_zero.mpr hsize
        exact .inr (Bool.eq_true_of_not_eq_false fun hv => hinvalid ⟨hpos, hv⟩)
    split
    · refine keeps_pure hu ⟨⟨?_, fun hsize => ?_, (if_neg hoffset).symm⟩, haccepted, hnoted.2⟩
      · obtain rfl | hvalid := haccepted
        · exact .inl rfl
        · by_cases hsize : size = 0
          · exact .inl (congrArg UInt32.toNat hsize)
          · exact .inr ⟨_, addrAppToNative_of_valid hsize hvalid, hnoted.1⟩
      · rw [if_neg hoffset]
        exact addrAppToNative_of_valid hsize (haccepted.resolve_left hsize)
    · exact keeps_fail hu

theorem keeps_getGuestString (h : Confined s) (offset : UInt32) :
    Keeps Confined s (getGuestString offset true) fun p t =>
      (p.Usable t ∧ p.Terminated t.memory) ∧ StringAccepted s.memory offset ∧
        t.memory = s.memory := by
  unfold getGuestString StringAccepted
  by_cases hoffset : offset = 0
  · simp only [hoffset, if_true]
    exact keeps_pure h ⟨⟨.inl rfl, fun o ho => by cases ho⟩, .inl trivial, rfl⟩
  · simp only [hoffset, if_false]
    refine (keeps_get h).bind fun _ t ht _ hget => ?_
    obtain ⟨rfl, rfl⟩ := hget
    refine keeps_guard ht fun hvalid => ?_
    refine (keeps_noteValidated ht _).bind fun _ u hu _ hnoted => ?_
    split
    · rename_i hnative
      obtain ⟨o, ho⟩ := Option.isSome_iff_exists.mp hnative
      obtain ⟨-, rfl⟩ : offset.toNat < t.memory.length ∧ offset.toNat = o := by
        simpa [addrAppToNative] using ho
      refine keeps_pure hu ⟨⟨.inr ⟨_, ho, hnoted.1⟩, fun o' ho' => ?_⟩, ?_, hnoted.2⟩
      · have heq : offset.toNat = o' := Option.some.inj (ho.symm.trans ho')
        rw [hnoted.2, heq]
      · exact .inr (Bool.eq_true_of_not_eq_false hvalid)
    · exact keeps_fail hu

/-! ## The wrappers but for `sock_addr_resolve` -/

variable {net : Outcome}

/-- A buffer that may not be NULL. -/
theorem Pointer.Buffer.validated_eq {offset size : UInt32} (h : p.Buffer offset size s)
    (haccepted : BufferAccepted t.memory offset size false) : p.validated = size.toNat := by
  have hoffset : offset ≠ 0 := by
    rintro rfl
    cases haccepted
  rw [h.validated, if_neg hoffset]

theorem keeps_getBuffer (h : Confined s) (offset size : UInt32) :
    Keeps Confined s (getGuestBuffer offset size false) fun p t =>
      p.Usable t ∧ p.validated = size.toNat :=
  (keeps_getGuestBuffer h offset size false).imp fun _ _ _ _ ⟨hp, haccepted, _⟩ =>
    ⟨hp.usable, hp.validated_eq haccepted⟩

theorem keeps_getDataBuffer (h : Confined s) (offset len : UInt32) :
    Keeps Confined s (getDataBuffer offset len) fun p t =>
      p.Usable t ∧ p.validated = len.toNat := by
  refine (keeps_getGuestBuffer h offset len (len = 0)).imp fun p t _ _ ⟨hp, haccepted, _⟩ => ?_
  refine ⟨hp.usable, ?_⟩
  rw [hp.validated]
  split
  · rename_i hoffset
    have hlen : decide (len = 0) = true := by simpa only [BufferAccepted, if_pos hoffset] using haccepted
    rw [of_decide_eq_true hlen]
    rfl
  · rfl

theorem length_encodeAddr (a : SockAddr) : (encodeAddr a).length = addrSize := by
  cases a with
  | inet port address => exact length_resize ..
  | inet6 port address => exact length_resize ..
  | other => exact List.length_replicate ..

theorem keeps_nativeToWasmAddr (h : Confined s) (hp : p.Usable s) (source : SockAddr)
    (hfits : disp + addrSize ≤ p.validated) :
    Keeps Confined s (nativeToWasmAddr source p disp) fun supported _ =>
      supported = source.supported := by
  refine (keeps_store h hp ?_).bind fun _ t ht _ _ => keeps_pure ht rfl
  rw [length_encodeAddr]
  exact hfits

theorem keeps_receiveInto (h : Confined s) (hp : p.Usable s) {len : UInt32}
    (hfits : p.validated = len.toNat) :
    Keeps Confined s (receiveInto net p len) fun _ _ => True := by
  refine (keeps_lend h hp (by omega)).bind fun _ t ht _ _ => ?_
  exact (keeps_put ht _).imp fun _ _ _ _ _ => trivial

/-- A call of the network stack that returns nothing. -/
theorem keeps_call (h : Confined s) (operation : Operation) (r : Except Errno Unit) :
    Keeps Confined s (perform operation >>= fun _ => check r) fun _ _ => True :=
  (keeps_perform h operation).bind fun _ _ ht _ _ => keeps_check ht r

/-- A call whose result is left in a word of the guest. -/
theorem keeps_answer {α : Type} (h : Confined s) (hp : p.Usable s) (hsize : p.validated = 4)
    (operation : Operation) (r : Except Errno α) (f : α → UInt32) :
    Keeps Confined s (do perform operation; let a ← check r; storeWord p (f a)) fun _ _ => True := by
  refine (keeps_perform h operation).bind fun _ t ht hst _ => ?_
  refine (keeps_check ht r).bind fun a u hu htu _ => ?_
  exact (keeps_storeWord hu ((hp.mono hst).mono htu) hsize _).imp fun _ _ _ _ _ => trivial

theorem keeps_sockOpen (h : Confined s) (poolFd family type : Int32) (fdOut : UInt32) :
    Keeps Confined s (sockOpen net poolFd family type fdOut) fun _ _ => True := by
  refine (keeps_getBuffer h fdOut 4).bind fun p t ht _ ⟨hp, hsize⟩ => ?_
  split
  · exact keeps_fail ht
  · split
    · exact keeps_fail ht
    · exact keeps_fail ht
    · exact keeps_answer ht hp hsize _ _ _

theorem keeps_sockAccept (h : Confined s) (fd flags : Int32) (fdOut : UInt32) :
    Keeps Confined s (sockAccept net fd flags fdOut) fun _ _ => True := by
  refine (keeps_getBuffer h fdOut 4).bind fun p t ht _ ⟨hp, hsize⟩ => ?_
  exact keeps_guard ht fun _ => keeps_answer ht hp hsize _ _ _

/-- The wrappers that pass an address of the guest on. -/
theorem keeps_passAddr (h : Confined s) (addrOffset : UInt32) (operation : SockAddr → Operation)
    (r : Except Errno Unit) :
    Keeps Confined s (do
      let addr ← getGuestBuffer addrOffset 20 false
      let source ← load addr 0 addrSize
      match wasmToNativeAddr source with
      | none => fail .afNoSupport
      | some name =>
        perform (operation name)
        check r) fun _ _ => True := by
  refine (keeps_getBuffer h addrOffset 20).bind fun p t ht _ ⟨hp, hsize⟩ => ?_
  refine (keeps_load ht hp (Nat.le_of_eq hsize.symm)).bind fun source u hu _ _ => ?_
  split
  · exact keeps_fail hu
  · exact keeps_call hu _ _

theorem keeps_sockAddrOf (h : Confined s) (operation : Operation) (addrOffset : UInt32) :
    Keeps Confined s (sockAddrOf net operation addrOffset) fun _ _ => True := by
  refine (keeps_getBuffer h addrOffset 20).bind fun p t ht _ ⟨hp, hsize⟩ => ?_
  refine (keeps_perform ht operation).bind fun _ u hu htu _ => ?_
  refine (keeps_check hu _).bind fun _ v hv huv _ => ?_
  refine (keeps_nativeToWasmAddr hv ((hp.mono htu).mono huv) _ (Nat.le_of_eq hsize.symm)).bind
    fun supported w hw _ _ => ?_
  split
  · exact keeps_pure hw trivial
  · exact keeps_fail hw

theorem keeps_sockRecv (h : Confined s) (fd : Int32) (buffer len : UInt32) (flags : Int32)
    (dataLenOut roFlagsOut : UInt32) :
    Keeps Confined s (sockRecv net fd buffer len flags dataLenOut roFlagsOut) fun _ _ => True := by
  refine (keeps_getDataBuffer h buffer len).bind fun b t ht _ ⟨hb, hlen⟩ => ?_
  refine (keeps_getBuffer ht dataLenOut 4).bind fun d u hu htu ⟨hd, hdsize⟩ => ?_
  refine (keeps_getBuffer hu roFlagsOut 2).bind fun o v hv huv ⟨ho, hosize⟩ => ?_
  refine (keeps_receiveInto hv ((hb.mono htu).mono huv) hlen).bind fun _ w hw hvw _ => ?_
  refine (keeps_perform hw _).bind fun _ x hx hwx _ => ?_
  refine (keeps_check hx _).bind fun received y hy hxy _ => ?_
  have hvy := ((hvw.trans hwx).trans hxy)
  refine (keeps_storeWord hy ((hd.mono huv).mono hvy) hdsize _).bind fun _ z hz hyz _ => ?_
  exact (keeps_store hz (ho.mono (hvy.trans hyz)) (Nat.le_of_eq hosize.symm)).imp
    fun _ _ _ _ _ => trivial

theorem keeps_sockSend (h : Confined s) (fd : Int32) (buffer len : UInt32) (flags : Int32)
    (dataLenOut : UInt32) :
    Keeps Confined s (sockSend net fd buffer len flags dataLenOut) fun _ _ => True := by
  refine (keeps_getDataBuffer h buffer len).bind fun b t ht _ ⟨hb, hlen⟩ => ?_
  refine (keeps_getBuffer ht dataLenOut 4).bind fun d u hu htu ⟨hd, hdsize⟩ => ?_
  refine (keeps_lend hu (hb.mono htu) (by omega)).bind fun _ v hv huv _ => ?_
  exact keeps_answer hv (hd.mono huv) hdsize _ _ _

theorem keeps_sockRecvFrom (h : Confined s) (fd : Int32) (buffer len : UInt32) (flags : Int32)
    (addrOut dataLenOut : UInt32) :
    Keeps Confined s (sockRecvFrom net fd buffer len flags addrOut dataLenOut) fun _ _ => True := by
  refine (keeps_getDataBuffer h buffer len).bind fun b t ht _ ⟨hb, hlen⟩ => ?_
  refine (keeps_getBuffer ht addrOut 20).bind fun a u hu htu ⟨ha, hasize⟩ => ?_
  refine (keeps_getBuffer hu dataLenOut 4).bind fun d v hv huv ⟨hd, hdsize⟩ => ?_
  refine (keeps_receiveInto hv ((hb.mono htu).mono huv) hlen).bind fun _ w hw hvw _ => ?_
  refine (keeps_perform hw _).bind fun _ x hx hwx _ => ?_
  refine (keeps_check hx _).bind fun received y hy hxy _ => ?_
  have hvy := (hvw.trans hwx).trans hxy
  refine (keeps_nativeToWasmAddr hy ((ha.mono huv).mono hvy) _ (Nat.le_of_eq hasize.symm)).bind
    fun supported z hz hyz _ => ?_
  split
  · exact (keeps_storeWord hz (hd.mono (hvy.trans hyz)) hdsize _).imp fun _ _ _ _ _ => trivial
  · exact keeps_fail hz

theorem keeps_sockSendTo (h : Confined s) (fd : Int32) (buffer len : UInt32) (flags : Int32)
    (addr dataLenOut : UInt32) :
    Keeps Confined s (sockSendTo net fd buffer len flags addr dataLenOut) fun _ _ => True := by
  refine (keeps_getDataBuffer h buffer len).bind fun b t ht _ ⟨hb, hlen⟩ => ?_
  refine (keeps_getBuffer ht addr 20).bind fun a u hu htu ⟨ha, hasize⟩ => ?_
  refine (keeps_getBuffer hu dataLenOut 4).bind fun d v hv huv ⟨hd, hdsize⟩ => ?_
  refine (keeps_load hv (ha.mono huv) (Nat.le_of_eq hasize.symm)).bind fun source w hw hvw _ => ?_
  split
  · exact keeps_fail hw
  · have hb := ((hb.mono htu).mono huv).mono hvw
    refine (keeps_lend hw hb (by omega)).bind fun _ x hx hwx _ => ?_
    exact keeps_answer hx (hd.mono (hvw.trans hwx)) hdsize _ _ _

theorem keeps_setIntOpt (h : Confined s) (fd : Int32) (option : SockOption) (value : Int32) :
    Keeps Confined s (setIntOpt net fd option value) fun _ _ => True :=
  keeps_call h _ _

theorem keeps_getIntOpt (h : Confined s) (fd : Int32) (option : SockOption) :
    Keeps Confined s (getIntOpt net fd option) fun _ _ => True := by
  refine (keeps_perform h _).bind fun _ t ht _ _ => ?_
  exact (keeps_check ht _).bind fun _ u hu _ _ => keeps_pure hu trivial

theorem keeps_setTimeoutOpt (h : Confined s) (fd : Int32) (option : SockOption) (timeoutUs : Int64) :
    Keeps Confined s (setTimeoutOpt net fd option timeoutUs) fun _ _ => True :=
  keeps_guard h fun _ => keeps_call h _ _

theorem keeps_setSize (h : Confined s) (option : SockOption) (fd size : Int32) :
    Keeps Confined s (setSize net option fd size) fun _ _ => True :=
  keeps_guard h fun _ => keeps_setIntOpt h fd option size

/-- The wrappers that return an option. -/
theorem keeps_getOption (h : Confined s) (option : SockOption) (fd : Int32) (offset : UInt32)
    (f : Int32 → UInt32) :
    Keeps Confined s (do
      let out ← getGuestBuffer offset 4 false
      let value ← getIntOpt net fd option
      storeWord out (f value)) fun _ _ => True := by
  refine (keeps_getBuffer h offset 4).bind fun p t ht _ ⟨hp, hsize⟩ => ?_
  refine (keeps_getIntOpt ht fd option).bind fun value u hu htu _ => ?_
  exact (keeps_storeWord hu (hp.mono htu) hsize _).imp fun _ _ _ _ _ => trivial

/-! ## Strings of the guest -/

theorem length_takeWhile_le {l l' : Bytes} (hlen : l'.length ≤ l.length)
    (hzero : ∀ i : Nat, l[i]? = some 0 → l'[i]? = some 0) :
    (l'.takeWhile (· ≠ 0)).length ≤ (l.takeWhile (· ≠ 0)).length := by
  induction l generalizing l' with
  | nil => simp_all
  | cons a l ih =>
    cases l' with
    | nil => simp
    | cons b l' =>
      have htail := ih (Nat.le_of_succ_le_succ hlen) fun i => hzero (i + 1)
      by_cases ha : a = 0
      · have hb : b = 0 := by simpa [ha] using hzero 0
        simp [ha, hb]
      · by_cases hb : b = 0
        · simp [hb]
        · simpa [List.takeWhile_cons, ha, hb] using htail

/-- Writing zeros makes no string longer. -/
theorem length_cstring_write_le (p : Pointer) (disp n o : Nat) (memory : Bytes) :
    (cstring (p.write disp (List.replicate n 0) memory) o).length ≤ (cstring memory o).length := by
  unfold Pointer.write
  split
  · rename_i start _
    refine length_takeWhile_le ?_ fun i hi => ?_
    · simp only [List.length_drop, List.length_take]
      omega
    rw [List.getElem?_drop] at hi ⊢
    have hlt : o + i < memory.length := (List.getElem?_eq_some_iff.mp hi).1
    rw [List.getElem?_take_of_lt hlt, getElem?_overwrite _ hlt]
    split
    · rename_i hin
      rw [List.length_replicate] at hin
      exact List.getElem?_replicate_of_lt (by omega)
    · exact hi
  · exact Nat.le_refl _

theorem Pointer.Terminated.write {memory : Bytes} (h : p.Terminated memory) (q : Pointer)
    (disp n : Nat) : p.Terminated (q.write disp (List.replicate n 0) memory) := fun o ho =>
  Nat.le_trans (Nat.succ_le_succ (length_cstring_write_le q disp n o memory)) (h o ho)

/-! ## `sock_addr_resolve` -/

/-- The first part of `sock_addr_resolve_wrapper` does not return an error. -/
structure PointersAccepted (a : ResolveArgs) (memory : Bytes) : Prop where
  host : StringAccepted memory a.hostOffset
  service : StringAccepted memory a.serviceOffset
  hints : BufferAccepted memory a.hintsOffset 2 true
  addrInfo : BufferAccepted memory a.addrInfoOffset a.addrInfoBytes false
  countOut : BufferAccepted memory a.addrInfoCountOffset 4 false

/-- What the pointers of the first part are good for. -/
structure ResolvePointers.Ready (p : ResolvePointers) (a : ResolveArgs) (s : Guest) : Prop where
  host : p.host.Usable s ∧ p.host.Terminated s.memory
  service : p.service.Usable s ∧ p.service.Terminated s.memory
  hints : p.hints.Buffer a.hintsOffset 2 s
  addrInfo : p.addrInfo.Usable s ∧ p.addrInfo.validated = a.addrInfoBytes.toNat
  countOut : p.countOut.Usable s ∧ p.countOut.validated = 4 ∧
    p.countOut.native = some a.addrInfoCountOffset.toNat

theorem Pointer.Buffer.mono {offset size : UInt32} (h : p.Buffer offset size s) (hle : s ≤ t) :
    p.Buffer offset size t := ⟨h.usable.mono hle, h.native, h.validated⟩

theorem keeps_resolvePointers (h : Confined s) (a : ResolveArgs) :
    Keeps Confined s (resolvePointers a) fun p t =>
      p.Ready a t ∧ PointersAccepted a s.memory ∧ t.memory = s.memory := by
  refine (keeps_getGuestString h a.hostOffset).bind fun host t ht _ hhost => ?_
  obtain ⟨⟨hhost, hhostEnd⟩, hhostOk, htmem⟩ := hhost
  refine (keeps_getGuestString ht a.serviceOffset).bind fun service u hu htu hservice => ?_
  obtain ⟨⟨hservice, hserviceEnd⟩, hserviceOk, humem⟩ := hservice
  refine (keeps_getGuestBuffer hu a.hintsOffset 2 true).bind fun hints v hv huv hhints => ?_
  obtain ⟨hhints, hhintsOk, hvmem⟩ := hhints
  refine (keeps_getGuestBuffer hv a.addrInfoOffset a.addrInfoBytes false).bind
    fun addrInfo w hw hvw haddrInfo => ?_
  obtain ⟨haddrInfo, haddrInfoOk, hwmem⟩ := haddrInfo
  refine (keeps_getGuestBuffer hw a.addrInfoCountOffset 4 false).bind
    fun countOut x hx hwx hcountOut => ?_
  obtain ⟨hcountOut, hcountOutOk, hxmem⟩ := hcountOut
  have hcount : a.addrInfoCountOffset ≠ 0 := by
    intro hzero
    rw [BufferAccepted, if_pos hzero] at hcountOutOk
    cases hcountOutOk
  have hux := (huv.trans hvw).trans hwx
  rw [hwmem, hvmem, humem, htmem] at hcountOutOk
  rw [hvmem, humem, htmem] at haddrInfoOk
  rw [humem, htmem] at hhintsOk
  rw [htmem] at hserviceOk
  have hmem : x.memory = s.memory := by rw [hxmem, hwmem, hvmem, humem, htmem]
  refine keeps_pure hx ⟨?_, ⟨hhostOk, hserviceOk, hhintsOk, haddrInfoOk, hcountOutOk⟩, hmem⟩
  have hback : x.memory = t.memory ∧ x.memory = u.memory := by
    rw [hxmem, hwmem, hvmem, humem]
    exact ⟨rfl, rfl⟩
  constructor
  · exact ⟨hhost.mono (htu.trans hux), hback.1 ▸ hhostEnd⟩
  · exact ⟨hservice.mono hux, hback.2 ▸ hserviceEnd⟩
  · exact hhints.mono (hvw.trans hwx)
  · exact ⟨haddrInfo.usable.mono hwx, haddrInfo.validated_eq haddrInfoOk⟩
  · exact ⟨hcountOut.usable, hcountOut.validated_eq hcountOutOk,
      (hcountOut.native (by decide)).trans (if_neg hcount)⟩

/-- The memory after `*count_out = 0`. -/
def ResolveArgs.zeroCount (a : ResolveArgs) (memory : Bytes) : Bytes :=
  (⟨some a.addrInfoCountOffset.toNat, 4⟩ : Pointer).write 0 (List.replicate 4 0) memory

theorem write_countOut {a : ResolveArgs} (h : p.native = some a.addrInfoCountOffset.toNat)
    (memory : Bytes) :
    p.write 0 (LittleEndian.leBytes 4 (0 : UInt32).toNat) memory = a.zeroCount memory := by
  unfold ResolveArgs.zeroCount Pointer.write
  rw [h]
  rfl

/-- The hints name a family and a type. -/
def HintsAccepted (a : ResolveArgs) (memory : Bytes) : Prop :=
  a.hintsOffset ≠ 0 →
    familyToNative ((slice (a.zeroCount memory) a.hintsOffset.toNat 2).getD 0 0) ≠ none ∧
      typeToNative ((slice (a.zeroCount memory) a.hintsOffset.toNat 2).getD 1 0) ≠ none

theorem load_some {o : Nat} (h : p.native = some o) :
    load p disp length s = (.ok (slice s.memory (o + disp) length), s.touch p disp length) := by
  obtain ⟨native, validated⟩ := p
  cases h
  rfl

theorem keeps_resolveHints {a : ResolveArgs} {memory : Bytes} (h : Confined s)
    (hp : p.Buffer a.hintsOffset 2 s) (hmem : s.memory = a.zeroCount memory) :
    Keeps Confined s (resolveHints p) fun _ t => HintsAccepted a memory ∧ t.memory = s.memory := by
  have hnative := hp.native (by decide)
  have hvalidated := hp.validated
  unfold resolveHints HintsAccepted
  by_cases hoffset : a.hintsOffset = 0
  · rw [if_pos hoffset] at hnative
    rw [hnative]
    exact keeps_pure h ⟨fun hne => absurd hoffset hne, rfl⟩
  · rw [if_neg hoffset] at hnative hvalidated
    rw [hnative, Option.isSome_some, if_pos rfl]
    have hfits : 0 + 2 ≤ p.validated := Nat.le_of_eq hvalidated.symm
    have hload := keeps_load h hp.usable hfits
    have hbytes : Keeps Confined s (load p 0 2) fun bytes t =>
        bytes = slice s.memory a.hintsOffset.toNat 2 ∧ t.memory = s.memory := by
      refine ⟨hload.invariant, hload.grows, fun b hb => ⟨?_, hload.returns b hb⟩⟩
      rw [load_some hnative] at hb
      cases hb
      rfl
    refine hbytes.bind fun bytes t ht _ hQ => ?_
    obtain ⟨rfl, htmem⟩ := hQ
    refine keeps_guard ht fun hfamily => keeps_guard ht fun htype => ?_
    rw [hmem] at hfamily htype
    exact keeps_pure ht ⟨fun _ => ⟨hfamily, htype⟩, htmem⟩

theorem keeps_loadString (h : Confined s) (hp : p.Usable s) (hend : p.Terminated s.memory) :
    Keeps Confined s (loadString p) fun _ t => t.memory = s.memory := by
  refine (keeps_get h).bind fun _ t ht _ hget => ?_
  obtain ⟨rfl, rfl⟩ := hget
  split
  · rename_i o ho
    have hfits := hend o ho
    refine (keeps_lend ht hp (by omega)).bind fun _ u hu _ hmem => ?_
    exact keeps_pure hu hmem
  · exact keeps_pure ht rfl

theorem keeps_resolveName (h : Confined s) (hp : p.Usable s) (hend : p.Terminated s.memory) :
    Keeps Confined s (resolveName p) fun _ t => t.memory = s.memory := by
  unfold resolveName
  split
  · rename_i hnative
    obtain ⟨o, ho⟩ := Option.isSome_iff_exists.mp hnative
    have hfits := hend o ho
    refine (keeps_load h hp (by omega)).bind fun first t ht hle hmem => ?_
    split
    · refine (keeps_loadString ht (hp.mono hle) (hmem ▸ hend)).bind fun _ u hu _ humem => ?_
      exact keeps_pure hu (humem.trans hmem)
    · exact keeps_pure ht hmem
  · exact keeps_pure h rfl

theorem keeps_resolveQuery {a : ResolveArgs} {ps : ResolvePointers} (h : Confined s)
    (hps : ps.Ready a s) :
    Keeps Confined s (resolveQuery net ps) fun results _ =>
      HintsAccepted a s.memory ∧ net.results = .ok results := by
  obtain ⟨hcount, hcountSize, hcountAt⟩ := hps.countOut
  refine (keeps_storeWord h hcount hcountSize 0).bind fun _ t ht hst htmem => ?_
  have hzero : t.memory = a.zeroCount s.memory := htmem.trans (write_countOut hcountAt s.memory)
  have hends : ps.host.Terminated t.memory ∧ ps.service.Terminated t.memory := by
    rw [htmem]
    exact ⟨hps.host.2.write _ 0 4, hps.service.2.write _ 0 4⟩
  refine (keeps_resolveHints ht (hps.hints.mono hst) hzero).bind fun _ u hu htu hhints => ?_
  obtain ⟨hhints, humem⟩ := hhints
  have hsu := hst.trans htu
  refine (keeps_resolveName hu (hps.host.1.mono hsu) (humem ▸ hends.1)).bind
    fun _ v hv huv hvmem => ?_
  refine (keeps_resolveName hv (hps.service.1.mono (hsu.trans huv))
    (by rw [hvmem, humem]; exact hends.2)).bind fun _ w hw _ _ => ?_
  refine keeps_lift hw fun results hresults => ⟨hhints, ?_⟩
  cases hr : net.results with
  | ok r => rw [hr] at hresults; cases hresults; rfl
  | error e => rw [hr] at hresults; cases hresults

/-! ## The entries -/

/-- How far behind `addr_info` the entries of the results go. -/
def entryBytes (len : Nat) : List AddrInfo → Nat → Nat
  | [], _ => 0
  | entry :: rest, count =>
    if count < len then
      match entry.addr with
      | none => entryBytes len rest count
      | some addr =>
        if addr.supported then max (addrInfoSize * (count + 1)) (entryBytes len rest (count + 1))
        else max (addrInfoSize * count + addrSize) (entryBytes len rest count)
    else 0

/-- No more than `addr_info_len` entries are written. -/
theorem entryBytes_le (len : Nat) (results : List AddrInfo) (count : Nat) :
    entryBytes len results count ≤ addrInfoSize * len := by
  induction results generalizing count with
  | nil => exact Nat.zero_le _
  | cons entry rest ih =>
    unfold entryBytes
    split
    · rename_i hlt
      have hentry := Nat.mul_le_mul_left addrInfoSize (Nat.succ_le_of_lt hlt)
      split
      · exact ih count
      · split
        · exact Nat.max_le.mpr ⟨hentry, ih (count + 1)⟩
        · refine Nat.max_le.mpr ⟨Nat.le_trans ?_ hentry, ih count⟩
          simp only [addrInfoSize, addrSize]
          omega
    · exact Nat.zero_le _

theorem keeps_copyResults (h : Confined s) (hp : p.Usable s) (len : Nat)
    (results : List AddrInfo) (count : Nat) (hfits : entryBytes len results count ≤ p.validated) :
    Keeps Confined s (copyResults p len results count) fun _ _ => True := by
  induction results generalizing s count with
  | nil => exact keeps_pure h trivial
  | cons entry rest ih =>
    unfold copyResults
    unfold entryBytes at hfits
    split
    · rename_i hlt
      rw [if_pos hlt] at hfits
      split
      · rename_i haddr
        rw [haddr] at hfits
        exact ih h hp count hfits
      · rename_i addr haddr
        simp only [haddr] at hfits
        -- the address is written in both cases, and more than it when it is supported
        have haddrFits : addrInfoSize * count + addrSize ≤ p.validated := by
          refine Nat.le_trans ?_ hfits
          split
          · refine Nat.le_trans ?_ (Nat.le_max_left ..)
            simp only [addrInfoSize, addrSize]
            omega
          · exact Nat.le_max_left ..
        refine (keeps_nativeToWasmAddr h hp addr haddrFits).bind fun stored t ht hst hstored => ?_
        split
        · rename_i hyes
          rw [hstored] at hyes
          simp only [hyes, if_true] at hfits
          obtain ⟨hentry, hrest⟩ := Nat.max_le.mp hfits
          refine (keeps_store ht (hp.mono hst) ?_).bind fun _ u hu htu _ => ?_
          · exact Nat.le_trans (Nat.le_of_eq (Nat.mul_succ addrInfoSize count).symm) hentry
          · exact ih hu ((hp.mono hst).mono htu) (count + 1) hrest
        · rename_i hno
          rw [hstored] at hno
          simp only [hno] at hfits
          exact ih ht (hp.mono hst) count (Nat.max_le.mp hfits).2
    · exact keeps_pure h trivial

/-- The condition: when `sock_addr_resolve` copies results, what they take of `addr_info` is
no more than the validated size, which is `22 * addr_info_len` modulo 2^32. -/
def Fits (net : Outcome) (call : HostCall) (memory : Bytes) : Prop :=
  match call with
  | .sockAddrResolve a => ∀ results, PointersAccepted a memory → HintsAccepted a memory →
      net.results = .ok results →
      entryBytes a.addrInfoLen.toNat results 0 ≤ a.addrInfoBytes.toNat
  | _ => True

theorem keeps_sockAddrResolve (h : Confined s) (a : ResolveArgs)
    (hfits : Fits net (.sockAddrResolve a) s.memory) :
    Keeps Confined s (sockAddrResolve net a) fun _ _ => True := by
  refine (keeps_resolvePointers h a).bind fun ps t ht _ hps => ?_
  obtain ⟨hps, hpointers, hmem⟩ := hps
  refine (keeps_resolveQuery ht hps).bind fun results u hu htu hquery => ?_
  rw [hmem] at hquery
  have hentries := hfits results hpointers hquery.1 hquery.2
  rw [← hps.addrInfo.2] at hentries
  refine (keeps_copyResults hu (hps.addrInfo.1.mono htu) _ _ 0 hentries).bind
    fun count v hv huv _ => ?_
  have hcount := (hps.countOut.1.mono htu).mono huv
  exact (keeps_storeWord hv hcount hps.countOut.2.1 _).imp fun _ _ _ _ _ => trivial

/-! ## Calls that copy results -/

theorem succeeds_getGuestBuffer {offset size : UInt32} {allowNull : Bool}
    (h : BufferAccepted s.memory offset size allowNull) :
    Succeeds s (getGuestBuffer offset size allowNull) := by
  unfold getGuestBuffer
  unfold BufferAccepted at h
  by_cases hoffset : offset = 0
  · rw [if_pos hoffset] at h
    rw [if_pos hoffset, if_pos h]
    exact ⟨_, rfl⟩
  · rw [if_neg hoffset] at h
    rw [if_neg hoffset]
    refine .bind (get_apply s) ?_
    rw [if_neg]
    · refine .bind (modify_apply _ s) ?_
      rw [if_pos]
      · exact ⟨_, rfl⟩
      · by_cases hsize : size = 0
        · exact .inr hsize
        · rw [addrAppToNative_of_valid hsize (h.resolve_left hsize)]
          exact .inl rfl
    · rintro ⟨hpos, hinvalid⟩
      rw [h.resolve_left (UInt32.pos_iff_ne_zero.mp hpos)] at hinvalid
      cases hinvalid

theorem succeeds_getGuestString {offset : UInt32} (h : StringAccepted s.memory offset) :
    Succeeds s (getGuestString offset true) := by
  unfold getGuestString
  by_cases hoffset : offset = 0
  · rw [if_pos hoffset]
    exact ⟨_, rfl⟩
  · have hvalid := h.resolve_left hoffset
    have hlt : offset.toNat < s.memory.length := by
      have hmem : 0 ∈ s.memory.drop offset.toNat := List.contains_iff_mem.mp hvalid
      have hpos := List.length_pos_of_mem hmem
      rw [List.length_drop] at hpos
      omega
    rw [if_neg hoffset]
    refine .bind (get_apply s) ?_
    rw [if_neg (by rw [hvalid]; decide)]
    refine .bind (modify_apply _ s) ?_
    rw [if_pos (by rw [addrAppToNative, if_pos hlt]; rfl)]
    exact ⟨_, rfl⟩

theorem succeeds_resolvePointers (h : Confined s) {a : ResolveArgs}
    (ha : PointersAccepted a s.memory) : Succeeds s (resolvePointers a) := by
  obtain ⟨host, t, hx, ht, -, -, -, htmem⟩ :=
    (keeps_getGuestString h a.hostOffset).apply (succeeds_getGuestString ha.host)
  refine .bind hx ?_
  obtain ⟨service, u, hx, hu, -, -, -, humem⟩ :=
    (keeps_getGuestString ht a.serviceOffset).apply
      (succeeds_getGuestString (htmem ▸ ha.service))
  rw [htmem] at humem
  refine .bind hx ?_
  obtain ⟨hints, v, hx, hv, -, -, -, hvmem⟩ :=
    (keeps_getGuestBuffer hu a.hintsOffset 2 true).apply
      (succeeds_getGuestBuffer (humem ▸ ha.hints))
  rw [humem] at hvmem
  refine .bind hx ?_
  obtain ⟨addrInfo, w, hx, hw, -, -, -, hwmem⟩ :=
    (keeps_getGuestBuffer hv a.addrInfoOffset a.addrInfoBytes false).apply
      (succeeds_getGuestBuffer (hvmem ▸ ha.addrInfo))
  rw [hvmem] at hwmem
  refine .bind hx ?_
  obtain ⟨countOut, x, hx, -, -, -⟩ :=
    (keeps_getGuestBuffer hw a.addrInfoCountOffset 4 false).apply
      (succeeds_getGuestBuffer (hwmem ▸ ha.countOut))
  exact .bind hx ⟨_, rfl⟩

theorem succeeds_resolveHints {a : ResolveArgs} {memory : Bytes} (hp : p.Buffer a.hintsOffset 2 s)
    (hmem : s.memory = a.zeroCount memory) (ha : HintsAccepted a memory) :
    Succeeds s (resolveHints p) := by
  have hnative := hp.native (by decide)
  unfold resolveHints
  by_cases hoffset : a.hintsOffset = 0
  · rw [if_pos hoffset] at hnative
    rw [hnative]
    exact ⟨_, rfl⟩
  · obtain ⟨hfamily, htype⟩ := ha hoffset
    rw [if_neg hoffset] at hnative
    rw [← hmem] at hfamily htype
    rw [hnative, Option.isSome_some, if_pos rfl]
    refine .bind (load_some hnative) ?_
    rw [Nat.add_zero, if_neg hfamily, if_neg htype]
    exact ⟨_, rfl⟩

theorem succeeds_resolveName (p : Pointer) (s : Guest) : Succeeds s (resolveName p) := by
  unfold resolveName
  split
  · rename_i hnative
    obtain ⟨o, ho⟩ := Option.isSome_iff_exists.mp hnative
    refine .bind (load_some ho) ?_
    split
    · unfold loadString
      simp only [ho]
      exact ⟨_, rfl⟩
    · exact ⟨_, rfl⟩
  · exact ⟨_, rfl⟩

theorem succeeds_resolveQuery {a : ResolveArgs} {ps : ResolvePointers} {results : List AddrInfo}
    (h : Confined s) (hps : ps.Ready a s) (ha : HintsAccepted a s.memory)
    (hresults : net.results = .ok results) : Succeeds s (resolveQuery net ps) := by
  obtain ⟨hcount, hcountSize, hcountAt⟩ := hps.countOut
  obtain ⟨_, t, hx, ht, hst, htmem⟩ := (keeps_storeWord h hcount hcountSize 0).apply ⟨_, rfl⟩
  have hzero : t.memory = a.zeroCount s.memory := htmem.trans (write_countOut hcountAt s.memory)
  refine .bind hx ?_
  obtain ⟨_, u, hx, -⟩ := (keeps_resolveHints ht (hps.hints.mono hst) hzero).apply
    (succeeds_resolveHints (hps.hints.mono hst) hzero ha)
  refine .bind hx ?_
  obtain ⟨_, hv⟩ := succeeds_resolveName ps.host u
  refine .bind (Prod.ext hv rfl) ?_
  obtain ⟨_, hw⟩ := succeeds_resolveName ps.service (resolveName ps.host u).2
  refine .bind (Prod.ext hw rfl) ?_
  rw [hresults]
  exact ⟨_, rfl⟩

/-- No access goes beyond what has been validated for its pointer. -/
def Bounded (s : Guest) : Prop := ∀ a ∈ s.accesses, a.disp + a.length ≤ a.pointer.validated

theorem nativeToWasmAddr_apply (addr : SockAddr) : ∃ t, nativeToWasmAddr addr p disp s =
    (.ok addr.supported, t) ∧ t.accesses = s.accesses ++ [⟨p, disp, addrSize⟩] := by
  refine ⟨_, rfl, ?_⟩
  change s.accesses ++ [⟨p, disp, (encodeAddr addr).length⟩] = _
  rw [length_encodeAddr]

/-- The loop ends, and where no access of it goes too far, the entries do not. -/
theorem copyResults_apply (p : Pointer) (len : Nat) (results : List AddrInfo) (count : Nat)
    (s : Guest) : ∃ n t, copyResults p len results count s = (.ok n, t) ∧
      s.accesses ⊆ t.accesses ∧ (Bounded t → entryBytes len results count ≤ p.validated) := by
  induction results generalizing s count with
  | nil => exact ⟨count, s, rfl, List.Subset.refl _, fun _ => Nat.zero_le _⟩
  | cons entry rest ih =>
    unfold copyResults entryBytes
    split
    · cases haddr : entry.addr with
      | none => exact ih count s
      | some addr =>
        obtain ⟨t, hstore, htaccesses⟩ : ∃ t, nativeToWasmAddr addr p (addrInfoSize * count) s =
            (.ok addr.supported, t) ∧
            t.accesses = s.accesses ++ [⟨p, addrInfoSize * count, addrSize⟩] :=
          nativeToWasmAddr_apply addr
        have hst : s.accesses ⊆ t.accesses := by
          rw [htaccesses]
          exact List.subset_append_left ..
        simp only [bind_of_ok hstore]
        split
        · obtain ⟨n, u, hloop, htu, hbound⟩ := ih (count + 1)
            (store p (addrInfoSize * count + addrSize) [typeFromNative entry.sockType, 0] t).2
          have hmem : ∀ x ∈ t.accesses ++ [⟨p, addrInfoSize * count + addrSize, 2⟩],
              x ∈ u.accesses := fun x hx => htu hx
          refine ⟨n, u, hloop, fun x hx => hmem x (List.mem_append_left _ (hst hx)), fun hu => ?_⟩
          have hentry := hu _ (hmem _ (List.mem_append_right _ (List.mem_singleton_self _)))
          exact Nat.max_le.mpr ⟨Nat.le_trans (Nat.le_of_eq (Nat.mul_succ ..)) hentry, hbound hu⟩
        · obtain ⟨n, u, hloop, htu, hbound⟩ := ih count t
          refine ⟨n, u, hloop, fun x hx => htu (hst hx), fun hu => ?_⟩
          have hentry := hu ⟨p, addrInfoSize * count, addrSize⟩ (htu (by simp [htaccesses]))
          exact Nat.max_le.mpr ⟨hentry, hbound hu⟩
    · exact ⟨count, s, rfl, List.Subset.refl _, fun _ => Nat.zero_le _⟩

theorem fits_of_confined (h : Confined s) (a : ResolveArgs)
    (hfinal : Confined (sockAddrResolve net a s).2) : Fits net (.sockAddrResolve a) s.memory := by
  intro results hpointers hhints hresults
  obtain ⟨ps, t, hx, ht, hst, hps, -, hmem⟩ :=
    (keeps_resolvePointers h a).apply (succeeds_resolvePointers h hpointers)
  unfold sockAddrResolve at hfinal
  rw [bind_of_ok hx] at hfinal
  rw [← hmem] at hhints
  obtain ⟨results', u, hx, -, -, -, hquery⟩ := (keeps_resolveQuery ht hps).apply
    (succeeds_resolveQuery ht hps hhints hresults)
  obtain rfl : results = results' := Except.ok.inj (hresults.symm.trans hquery)
  rw [bind_of_ok hx] at hfinal
  obtain ⟨n, v, hx, -, hbound⟩ := copyResults_apply ps.addrInfo a.addrInfoLen.toNat results 0 u
  rw [bind_of_ok hx] at hfinal
  rw [← hps.addrInfo.2]
  exact hbound fun x hx => (hfinal x (List.mem_append_left _ hx)).fits

/-! ## Every host call -/

theorem keeps_wrapper (h : Confined s) (call : HostCall) (hfits : Fits net call s.memory) :
    Keeps Confined s (wrapper net call) fun _ _ => True := by
  cases call with
  | sockOpen poolFd family type fdOut => exact keeps_sockOpen h poolFd family type fdOut
  | sockClose fd => exact keeps_call h _ _
  | sockBind fd addr => exact keeps_passAddr h addr (.bind fd) net.done
  | sockListen fd backlog => exact keeps_guard h fun _ => keeps_call h _ _
  | sockAccept fd flags fdOut => exact keeps_sockAccept h fd flags fdOut
  | sockConnect fd addr => exact keeps_passAddr h addr (.connect fd) net.done
  | sockAddrLocal fd addr => exact keeps_sockAddrOf h _ addr
  | sockAddrRemote fd addr => exact keeps_sockAddrOf h _ addr
  | sockAddrResolve args => exact keeps_sockAddrResolve h args hfits
  | sockRecv fd buffer len flags dataLen roFlags =>
    exact keeps_sockRecv h fd buffer len flags dataLen roFlags
  | sockSend fd buffer len flags dataLen => exact keeps_sockSend h fd buffer len flags dataLen
  | sockRecvFrom fd buffer len flags addr dataLen =>
    exact keeps_sockRecvFrom h fd buffer len flags addr dataLen
  | sockSendTo fd buffer len flags addr dataLen =>
    exact keeps_sockSendTo h fd buffer len flags addr dataLen
  | sockSetReuseAddr fd _ | sockSetBroadcast fd _ | sockSetKeepAlive fd _
  | sockSetTcpNoDelay fd _ => exact keeps_setIntOpt h fd _ _
  | sockGetReuseAddr fd out | sockGetBroadcast fd out | sockGetKeepAlive fd out
  | sockGetTcpNoDelay fd out | sockGetRecvBufSize fd out | sockGetSendBufSize fd out =>
    exact keeps_getOption h _ fd out _
  | sockSetRecvTimeout fd timeoutUs | sockSetSendTimeout fd timeoutUs =>
    exact keeps_setTimeoutOpt h fd _ timeoutUs
  | sockSetRecvBufSize fd size | sockSetSendBufSize fd size | sockSetTcpKeepIdle fd size
  | sockSetTcpKeepIntvl fd size => exact keeps_setSize h _ fd size

theorem confined_enter (memory : Bytes) : Confined (.enter memory) := fun _ ha => by cases ha

/-- A product that does not overflow covers all entries. -/
theorem fits_of_lt {a : ResolveArgs} (memory : Bytes) (h : 22 * a.addrInfoLen.toNat < 2 ^ 32) :
    Fits net (.sockAddrResolve a) memory := by
  intro results _ _ _
  have hbytes : a.addrInfoBytes.toNat = addrInfoSize * a.addrInfoLen.toNat := by
    rw [ResolveArgs.addrInfoBytes, UInt32.toNat_mul]
    exact Nat.mod_eq_of_lt h
  rw [hbytes]
  exact entryBytes_le ..

/-- **Guest memory.** Whatever a script passes and whatever the network stack returns, a host
call reads and writes no byte of the guest but those it has validated for the pointer, exactly
when the entries that `sock_addr_resolve` writes fit the size it has validated. -/
theorem confined_iff (net : Outcome) (call : HostCall) (memory : Bytes) :
    Confined (callNative net call memory).2 ↔ Fits net call memory := by
  rw [callNative_guest]
  constructor
  · intro h
    cases call
    case sockAddrResolve args => exact fits_of_confined (confined_enter memory) args h
    all_goals trivial
  · intro hfits
    exact (keeps_wrapper (confined_enter memory) call hfits).invariant

/-- A page of memory with a name in it. -/
def onePage : Bytes := List.replicate 16 0 ++ 97 :: List.replicate 65519 0

/-- The name resolves to one address. -/
def oneAddress : Outcome where
  fd := .ok 3
  done := .ok ()
  length := .ok 0
  data := []
  name := .other
  value := 0
  results := .ok [⟨some (.inet 80 [127, 0, 0, 1]), some .stream⟩]

/-- Room for so many entries that their size is 18 modulo 2^32, at 18 bytes from the end. -/
def wrappingLength : ResolveArgs := ⟨16, 0, 0, 65518, 195225787, 4⟩

theorem wrappingLength_not_confined :
    onePage.length = 65536 ∧ ¬ Confined (callNative oneAddress (.sockAddrResolve wrappingLength)
      onePage).2 := by
  have hlen : onePage.length = 65536 := by
    rw [onePage, List.length_append, List.length_cons, List.length_replicate, List.length_replicate]
  refine ⟨hlen, fun h => ?_⟩
  rw [callNative_guest] at h
  have hpointers : PointersAccepted wrappingLength onePage := by
    have hvalid : ∀ offset size : UInt32, offset.toNat + size.toNat ≤ 65536 →
        validateAppAddr onePage offset size = true := fun offset size hle => by
      rw [validateAppAddr, hlen]
      exact decide_eq_true hle
    constructor
    · refine .inr (List.contains_iff_mem.mpr ?_)
      rw [onePage, show wrappingLength.hostOffset.toNat = (List.replicate 16 (0 : UInt8)).length
        from rfl, List.drop_left]
      exact List.mem_cons_of_mem _ (List.mem_replicate.mpr ⟨Nat.succ_ne_zero _, rfl⟩)
    · exact .inl rfl
    · exact rfl
    · exact .inr (hvalid _ _ (by decide))
    · exact .inr (hvalid _ _ (by decide))
  have hhints : HintsAccepted wrappingLength onePage := fun hne => absurd rfl hne
  have hfits : Fits oneAddress (.sockAddrResolve wrappingLength) onePage :=
    fits_of_confined (confined_enter onePage) wrappingLength h
  have hentries := hfits [⟨some (.inet 80 [127, 0, 0, 1]), some .stream⟩] hpointers hhints rfl
  exact absurd hentries (by decide)

end Jukeboy.Services.SocketEnv
