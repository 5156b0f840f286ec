import Jukeboy.Wifi.Slots

/-! # The Wi-Fi slots of the companion API

The list numbers the slots from 1; a save and a connect request hand the number
they are given to functions that count from 0. -/
namespace Jukeboy.CompanionApi.WifiSlots

open Jukeboy.Base Jukeboy.CompanionApi.Tlv Jukeboy.CompanionApi.ServiceHandlers
open Jukeboy.Wifi.Slots

/-! ## The three requests -/

/-- The services as a handler sees them, with the Wi-Fi service of this model. -/
def services (base : Services) (env : Env) (s : State) : Services :=
  { base with
    result := fun
      | .wifiSaveSlot index ssid password => (saveSlot env index ssid password s).2
      | .wifiConnectSlot index => (connectSlot env index s).2
      | call => base.result call
    wifi := { base.wifi with savedSlots := .ok (getSavedSlots env s) } }

/-- What a call does to the Wi-Fi service. -/
def perform (env : Env) (s : State) : ServiceCall → State
  | .wifiSaveSlot index ssid password => (saveSlot env index ssid password s).1
  | .wifiConnectSlot index => (connectSlot env index s).1
  | _ => s

/-- A handled request: the Wi-Fi service after its calls, and the answer. -/
def request (env : Env) (s : State) (a : Answer) : State × Answer :=
  (a.calls.foldl (perform env) s, a)

def saveRequest (base : Services) (env : Env) (payload : Bytes) (s : State) : State × Answer :=
  request env s (handleWifiSaveSlot (services base env s) payload)

def connectRequest (base : Services) (env : Env) (payload : Bytes) (s : State) : State × Answer :=
  request env s (handleWifiConnectSlot (services base env s) payload)

def listRequest (base : Services) (env : Env) (s : State) : Answer :=
  handleWifiListSlots (services base env s)

/-- The answer is no error. -/
def Answer.Success (a : Answer) : Prop := ∀ e, a.body ≠ .error e

/-! ## What a client reads off the list -/

/-- The four TLVs behind the one that gives the number of a slot. -/
def reportedIn (w : Writer) (number : UInt8) : Option (List TlvEntry) :=
  match w.dropWhile (· != ⟨.wifiSlot, [number]⟩) with
  | [] => none
  | _ :: rest => some (rest.take 4)

/-- What the list says of a number. -/
def reported (base : Services) (env : Env) (s : State) (number : UInt8) : Option (List TlvEntry) :=
  match (listRequest base env s).body with
  | .ok w => reportedIn w number
  | _ => none

/-- The TLVs of one slot after its number. -/
def slotTlvs (info : WifiSlot) : List TlvEntry :=
  [⟨.wifiSlotConfigured, boolBytes info.configured⟩, ⟨.wifiSlotPreferred, boolBytes info.preferred⟩,
    ⟨.wifiSlotActive, boolBytes info.active⟩, ⟨.wifiSsid, info.ssid⟩]

theorem length_slotSsid_le (s : State) (key : Fin wifiSlotCount) :
    ((slotSsid s key).getD []).length ≤ 32 := by
  cases hssid : slotSsid s key with
  | none => exact Nat.zero_le _
  | some ssid =>
    obtain ⟨-, hlen, -⟩ := slotSsid_eq_some.mp hssid
    exact Nat.le_of_lt_succ hlen

/-- The TLVs of one slot in the list. -/
def listedSlot (env : Env) (s : State) (key : Fin wifiSlotCount) : List TlvEntry :=
  ⟨.wifiSlot, [UInt8.ofNat (key + 1)]⟩ :: slotTlvs (slotInfo env s key)

theorem appendEntry_eq {entry : List (TlvType × Bytes)} {w : Writer}
    (h : Writer.len w + (entry.map fun e => tlvHeaderLen + e.2.length).sum ≤ writerCapacity) :
    appendEntry w entry = some (w ++ entry.map fun e => ⟨e.1, e.2⟩) := by
  induction entry generalizing w with
  | nil => simp [appendEntry]
  | cons e rest ih =>
    obtain ⟨type, value⟩ := e
    simp only [List.map_cons, List.sum_cons] at h
    have hfits : ¬ Writer.len w + tlvHeaderLen + value.length > writerCapacity := by omega
    have hlen : Writer.len (w ++ [⟨type, value⟩]) =
        Writer.len w + (tlvHeaderLen + value.length) := by
      simp [Writer.len, TlvEntry.size]
    have hrest := ih (w := w ++ [⟨type, value⟩]) (by omega)
    have hstep : appendEntry w (⟨type, value⟩ :: rest) =
        appendEntry (w ++ [⟨type, value⟩]) rest := by
      simp only [appendEntry, List.foldlM_cons, tryAppend, if_neg hfits, Option.bind_eq_bind,
        Option.bind_some]
    rw [hstep, hrest]
    simp

theorem appendEntries_eq {entries : List (List (TlvType × Bytes))} {w : Writer}
    (h : Writer.len w +
      (entries.map fun entry => (entry.map fun e => tlvHeaderLen + e.2.length).sum).sum ≤
        writerCapacity) :
    appendEntries w entries = w ++ entries.flatMap fun entry => entry.map fun e => ⟨e.1, e.2⟩ := by
  induction entries generalizing w with
  | nil => simp [appendEntries]
  | cons entry rest ih =>
    simp only [List.map_cons, List.sum_cons] at h
    have hlen : Writer.len (w ++ entry.map fun e => (⟨e.1, e.2⟩ : TlvEntry)) =
        Writer.len w + (entry.map fun e => tlvHeaderLen + e.2.length).sum := by
      simp [Writer.len, TlvEntry.size, Function.comp_def]
    rw [appendEntries, appendEntry_eq (by omega)]
    dsimp only
    rw [ih (by omega), List.flatMap_cons, List.append_assoc]

/-- The whole list. -/
theorem listRequest_body {env : Env} (hread : env.openRead = .ok) (base : Services) (s : State) :
    (listRequest base env s).body = .ok (⟨.count, u32Bytes 3⟩ ::
      (listedSlot env s 0 ++ (listedSlot env s 1 ++ listedSlot env s 2))) := by
  have hlen : ∀ key, (slotInfo env s key).ssid.length ≤ 32 := by
    intro key
    rw [slotInfo_eq hread]
    exact length_slotSsid_le s key
  have hwhole : ∀ key, stringBytes (slotInfo env s key).ssid = (slotInfo env s key).ssid :=
    fun key => List.take_of_length_le ((hlen key).trans (by decide))
  have h0 := hlen 0
  have h1 := hlen 1
  have h2 := hlen 2
  have hslots : getSavedSlots env s = [slotInfo env s 0, slotInfo env s 1, slotInfo env s 2] := rfl
  unfold listRequest handleWifiListSlots
  simp only [services, hslots, Answer.show]
  rw [appendEntries_eq]
  · simp [wifiSlotCount, wifiSlotEntry, hwhole, listedSlot, slotTlvs, appendU32, append, tryAppend,
      Writer.len, tlvHeaderLen, writerCapacity, frameMaxLen, headerLen, u32Bytes]
  · simp [wifiSlotCount, wifiSlotEntry, hwhole, appendU32, append, tryAppend, Writer.len, TlvEntry.size,
      tlvHeaderLen, writerCapacity, frameMaxLen, headerLen, u32Bytes, boolBytes]
    omega

/-- Looking for a number, a client passes over the slots with another number. -/
theorem reportedIn_listedSlot (env : Env) (s : State) (key : Fin wifiSlotCount) (rest : Writer)
    (number : UInt8) :
    reportedIn (listedSlot env s key ++ rest) number =
      if number = UInt8.ofNat (key + 1) then some (slotTlvs (slotInfo env s key))
      else reportedIn rest number := by
  unfold reportedIn listedSlot slotTlvs
  by_cases hnumber : number = UInt8.ofNat (key + 1)
  · rw [if_pos hnumber, hnumber]
    simp
  · have hother :
        ((⟨.wifiSlot, [UInt8.ofNat (key + 1)]⟩ : TlvEntry) != ⟨.wifiSlot, [number]⟩) = true := by
      rw [bne_iff_ne]
      rintro ⟨⟩
      exact hnumber rfl
    rw [if_neg hnumber]
    simp only [List.cons_append, List.dropWhile_cons, hother, if_true]
    simp

theorem slotKey_sub_one (number : UInt8) :
    slotKey (number - 1) =
      if number = 1 then some 0 else if number = 2 then some 1
      else if number = 3 then some 2 else none := by
  by_cases h1 : number = 1
  · rw [if_pos h1, h1]
    rfl
  · by_cases h2 : number = 2
    · rw [if_neg h1, if_pos h2, h2]
      rfl
    · by_cases h3 : number = 3
      · rw [if_neg h1, if_neg h2, if_pos h3, h3]
        rfl
      · rw [if_neg h1, if_neg h2, if_neg h3, slotKey, dif_neg]
        have hne : ∀ n : Nat, n < 256 → number ≠ UInt8.ofNat n → number.toNat ≠ n := by
          rintro n hn hne rfl
          exact hne UInt8.ofNat_toNat.symm
        have hn1 := hne 1 (by decide) h1
        have hn2 := hne 2 (by decide) h2
        have hn3 := hne 3 (by decide) h3
        have hlt := number.toNat_lt
        rw [UInt8.toNat_sub, show (1 : UInt8).toNat = 1 from rfl, wifiSlotCount]
        omega

/-- **The list numbers the slots from 1.** -/
theorem reported_eq {env : Env} (hread : env.openRead = .ok) (base : Services) (s : State)
    (number : UInt8) :
    reported base env s number =
      (slotKey (number - 1)).map fun key => slotTlvs (slotInfo env s key) := by
  have hnil : reportedIn ([] : Writer) number = none := rfl
  have hcount : ∀ rest : Writer, reportedIn (⟨.count, u32Bytes 3⟩ :: rest) number =
      reportedIn rest number := by
    intro rest
    simp [reportedIn]
  rw [reported, listRequest_body hread]
  dsimp only
  rw [hcount, reportedIn_listedSlot, reportedIn_listedSlot,
    ← List.append_nil (listedSlot env s 2), reportedIn_listedSlot, hnil, slotKey_sub_one]
  change (if number = 1 then _ else if number = 2 then _ else if number = 3 then _ else none) = _
  split
  · rfl
  · split
    · rfl
    · split
      · rfl
      · rfl

/-! ## What the requests do -/

theorem saveRequest_eq {base : Services} {env : Env} {payload : Bytes} {value : UInt32}
    {ssid : Bytes} (hvalue : tlvU32 payload .wifiSlot = some value)
    (hssid : tlvString payload .wifiSsid 33 = some ssid) (s : State) :
    let password := (tlvString payload .wifiPassword 65).getD []
    (value < 1 ∨ value > .ofNat wifiSlotCount → (saveRequest base env payload s).1 = s ∧
      ¬ Answer.Success (saveRequest base env payload s).2) ∧
    (¬ (value < 1 ∨ value > .ofNat wifiSlotCount) →
      (saveRequest base env payload s).1 = (saveSlot env value.toUInt8 ssid password s).1 ∧
      (Answer.Success (saveRequest base env payload s).2 ↔
        (saveSlot env value.toUInt8 ssid password s).2 = .ok)) := by
  intro password
  unfold saveRequest handleWifiSaveSlot
  rw [hvalue, hssid]
  dsimp only
  refine ⟨fun hout => ?_, fun hin => ?_⟩
  · rw [if_pos hout]
    exact ⟨rfl, fun hok => hok _ rfl⟩
  · rw [if_neg hin, Answer.ofCall]
    split
    · next hok => exact ⟨rfl, fun _ => hok, fun _ _ h => by cases h⟩
    · next hfail => exact ⟨rfl, fun hok => absurd rfl (hok _), fun hok => absurd hok hfail⟩

theorem connectRequest_eq {base : Services} {env : Env} {payload : Bytes} {value : UInt32}
    (hvalue : tlvU32 payload .wifiSlot = some value) (s : State) :
    (connectRequest base env payload s).1 = (connectSlot env value.toUInt8 s).1 ∧
      (Answer.Success (connectRequest base env payload s).2 ↔
        (connectSlot env value.toUInt8 s).2 = .ok) := by
  unfold connectRequest handleWifiConnectSlot
  rw [hvalue]
  dsimp only
  rw [Answer.ofCall]
  split
  · next hok => exact ⟨rfl, fun _ => hok, fun _ _ h => by cases h⟩
  · next hfail => exact ⟨rfl, fun hok => absurd rfl (hok _), fun hok => absurd hok hfail⟩

/-! ## One numbering -/

/-- **One numbering for all three requests**, for the slot value of a save request
`p` and a connect request `q`: what a successful save stores is listed under that
value, nothing else in the list changes and a connect request connects with it;
and both reject a value that is never listed. -/
structure OneNumbering (base : Services) (env : Env) (s : State) (p q : Bytes) (value : UInt32)
    (ssid password : Bytes) : Prop where
  saved : Answer.Success (saveRequest base env p s).2 →
    (∃ number preferred active, number.toNat = value.toNat ∧
      reported base env (saveRequest base env p s).1 number =
        some (slotTlvs ⟨true, preferred, active, ssid⟩)) ∧
    (∀ number, number.toNat ≠ value.toNat →
      reported base env (saveRequest base env p s).1 number = reported base env s number) ∧
    ∃ index u, connectRequest base env q (saveRequest base env p s).1 = u ∧
      Answer.Success u.2 ∧ u.1.commands = (saveRequest base env p s).1.commands ++ [index] ∧
      (processConnectSlot env index u.1).state = .connecting ∧
      (processConnectSlot env index u.1).config = some (ssid, password)
  unlisted : (∀ number, number.toNat = value.toNat → reported base env s number = none) →
    (¬ Answer.Success (saveRequest base env p s).2 ∧ (saveRequest base env p s).1 = s) ∧
    ¬ Answer.Success (connectRequest base env q s).2 ∧ (connectRequest base env q s).1 = s

/-- The value is saved only where the slot listed under it and the slot written
show the network already, and it fits the driver; and a value that is not listed
does not count, from 0 and cut to a byte, a slot in use. -/
structure Agrees (env : Env) (s : State) (value : UInt32) (ssid password : Bytes) : Prop where
  saved : ∀ listed written, slotKey (value.toUInt8 - 1) = some listed →
    slotKey value.toUInt8 = some written → 1 ≤ value → value ≤ 3 → ssid ≠ [] → Writes env →
      slotSsid s listed = some ssid ∧ slotSsid s written = some ssid ∧
        ssid.length < 32 ∧ password.length < 64
  unlisted : value < 1 ∨ value > 3 → ∀ key, slotKey value.toUInt8 = some key →
    slotSsid s key = none

theorem slotSsid_update_self {s : State} {key : Fin wifiSlotCount} {ssid password : Bytes}
    (hlen : ssid.length < 33) (hne : ssid ≠ []) :
    slotSsid { s with slots := Function.update s.slots key ⟨some ssid, some password⟩ } key =
      some ssid := by
  refine slotSsid_eq_some.mpr ⟨?_, hlen, hne⟩
  dsimp only
  rw [Function.update_self]

theorem slotSsid_update_of_ne {s : State} {key other : Fin wifiSlotCount} (hne : other ≠ key)
    (slot : StoredSlot) :
    slotSsid { s with slots := Function.update s.slots key slot } other = slotSsid s other := by
  simp only [slotSsid, Function.update_of_ne hne]

/-- A slot shows one network and its SSID. -/
theorem slotSsid_of_slotTlvs {env : Env} (hread : env.openRead = .ok) {s : State}
    {key : Fin wifiSlotCount} {info : WifiSlot} (h : slotTlvs (slotInfo env s key) = slotTlvs info)
    (hconfigured : info.configured = true) : slotSsid s key = some info.ssid := by
  rw [slotInfo_eq hread, slotTlvs, slotTlvs, hconfigured] at h
  simp only [List.cons.injEq, TlvEntry.mk.injEq, true_and, and_true] at h
  obtain ⟨hsome, -, -, hssid⟩ := h
  cases hs : slotSsid s key with
  | none =>
    rw [hs] at hsome
    cases hsome
  | some ssid =>
    rw [hs] at hssid
    exact congrArg some hssid

/-- Slots that show one network are listed alike. -/
theorem slotInfo_congr {env : Env} (hread : env.openRead = .ok) {s t : State}
    {key : Fin wifiSlotCount} (hssid : slotSsid t key = slotSsid s key)
    (hlast : t.lastSuccessfulSlot = s.lastSuccessfulSlot)
    (hactive : getActiveSlot t = getActiveSlot s) : slotInfo env t key = slotInfo env s key := by
  rw [slotInfo_eq hread, slotInfo_eq hread, hssid, hlast, hactive]

theorem length_tlvString_le {payload value : Bytes} {type : TlvType} {size : Nat}
    (h : tlvString payload type size = some value) : value.length ≤ size - 1 := by
  obtain ⟨found, -, rfl⟩ := Option.map_eq_some_iff.mp h
  exact (List.takeWhile_prefix _).length_le.trans (List.length_take_le _ _)

theorem eq_of_listed {value : UInt32} (h : ¬ (value < 1 ∨ value > .ofNat wifiSlotCount)) :
    value = 1 ∨ value = 2 ∨ value = 3 := by
  obtain ⟨h1, h3⟩ := not_or.mp h
  rw [UInt32.lt_iff_toNat_lt] at h1
  rw [gt_iff_lt, UInt32.lt_iff_toNat_lt] at h3
  change ¬ value.toNat < 1 at h1
  change ¬ 3 < value.toNat at h3
  have hcases : value.toNat = 1 ∨ value.toNat = 2 ∨ value.toNat = 3 := by omega
  refine hcases.imp (fun heq => ?_) fun hcases => hcases.imp (fun heq => ?_) fun heq => ?_
  all_goals exact UInt32.toNat_inj.mp heq

theorem length_password_le (payload : Bytes) :
    ((tlvString payload .wifiPassword 65).getD []).length < 65 := by
  cases hp : tlvString payload .wifiPassword 65 with
  | none => decide
  | some password => exact Nat.lt_succ_of_le (length_tlvString_le hp)

/-- When a save succeeds: it writes the slot after the one that is listed under its value. -/
theorem saveRequest_success_iff {base : Services} {env : Env} {payload : Bytes} {value : UInt32}
    {ssid : Bytes} (hvalue : tlvU32 payload .wifiSlot = some value)
    (hssid : tlvString payload .wifiSsid 33 = some ssid) (s : State) :
    Answer.Success (saveRequest base env payload s).2 ↔
      ∃ listed written, slotKey (value.toUInt8 - 1) = some listed ∧
        slotKey value.toUInt8 = some written ∧ 1 ≤ value ∧ value ≤ 3 ∧ ssid ≠ [] ∧
        Writes env := by
  have hlen : ssid.length < 33 := Nat.lt_succ_of_le (length_tlvString_le hssid)
  obtain ⟨hout, hin⟩ := @saveRequest_eq base env payload value ssid hvalue hssid s
  constructor
  · intro hok
    have hlisted := mt (fun h => (hout h).2) (not_not.mpr hok)
    obtain ⟨-, hsave⟩ := hin hlisted
    generalize hr : saveSlot env value.toUInt8 ssid _ s = r at hsave
    obtain ⟨t, err⟩ := r
    obtain rfl := hsave.mp hok
    obtain ⟨written, hkey, hne, -, -, hwrites, -⟩ := saveSlot_ok_iff.mp hr
    rcases eq_of_listed hlisted with rfl | rfl | rfl
    · obtain rfl : 1 = written := Option.some.inj hkey
      exact ⟨0, 1, rfl, rfl, by decide, by decide, hne, hwrites⟩
    · obtain rfl : 2 = written := Option.some.inj hkey
      exact ⟨1, 2, rfl, rfl, by decide, by decide, hne, hwrites⟩
    · cases hkey
  · rintro ⟨listed, written, -, hkey, h1, h3, hne, hwrites⟩
    have hlisted : ¬ (value < 1 ∨ value > .ofNat wifiSlotCount) :=
      not_or.mpr ⟨UInt32.not_lt.mpr h1, UInt32.not_lt.mpr h3⟩
    refine (hin hlisted).2.mpr ?_
    rw [saveSlot_ok_iff.mpr ⟨written, hkey, hne, hlen, length_password_le payload, hwrites, rfl⟩]

/-- What a save that succeeds leaves. -/
theorem saveRequest_state {base : Services} {env : Env} {payload : Bytes} {value : UInt32}
    {ssid : Bytes} (hvalue : tlvU32 payload .wifiSlot = some value)
    (hssid : tlvString payload .wifiSsid 33 = some ssid) {s : State}
    (hok : Answer.Success (saveRequest base env payload s).2) {written : Fin wifiSlotCount}
    (hwritten : slotKey value.toUInt8 = some written) :
    (saveRequest base env payload s).1 = { s with
      slots := Function.update s.slots written
        ⟨some ssid, some ((tlvString payload .wifiPassword 65).getD [])⟩ } := by
  obtain ⟨hout, hin⟩ := @saveRequest_eq base env payload value ssid hvalue hssid s
  obtain ⟨hstate, hsave⟩ := hin (mt (fun h => (hout h).2) (not_not.mpr hok))
  generalize hr : saveSlot env value.toUInt8 ssid _ s = r at hstate hsave
  obtain ⟨t, err⟩ := r
  obtain rfl := hsave.mp hok
  obtain ⟨key, hkey, -, -, -, -, rfl⟩ := saveSlot_ok_iff.mp hr
  obtain rfl := Option.some.inj (hkey.symm.trans hwritten)
  exact hstate

/-- A value is listed exactly from 1 to 3. -/
theorem unlisted_iff {env : Env} (hread : env.openRead = .ok) (base : Services) (s : State)
    (value : UInt32) :
    (∀ number, number.toNat = value.toNat → reported base env s number = none) ↔
      value < 1 ∨ value > .ofNat wifiSlotCount := by
  constructor
  · intro hnone
    by_contra hlisted
    rcases eq_of_listed hlisted with rfl | rfl | rfl
    · have h := hnone 1 rfl
      rw [reported_eq hread] at h
      cases h
    · have h := hnone 2 rfl
      rw [reported_eq hread] at h
      cases h
    · have h := hnone 3 rfl
      rw [reported_eq hread] at h
      cases h
  · intro hout number hnumber
    rw [UInt32.lt_iff_toNat_lt, gt_iff_lt, UInt32.lt_iff_toNat_lt] at hout
    change value.toNat < 1 ∨ 3 < value.toNat at hout
    have hne : ∀ n : UInt8, number = n → n.toNat = value.toNat := by
      rintro n rfl
      exact hnumber
    rw [reported_eq hread, slotKey_sub_one, if_neg, if_neg, if_neg]
    · rfl
    · intro h
      have h3 : 3 = value.toNat := hne 3 h
      omega
    · intro h
      have h2 : 2 = value.toNat := hne 2 h
      omega
    · intro h
      have h1 : 1 = value.toNat := hne 1 h
      omega

theorem slotKey_val {index : UInt8} {key : Fin wifiSlotCount} (h : slotKey index = some key) :
    (key : Nat) = index.toNat := by
  unfold slotKey at h
  split at h
  · rw [← Option.some.inj h]
  · cases h

/-- The slot that is listed under a value is not the one the value writes. -/
theorem listed_ne_written {index : UInt8} {listed written : Fin wifiSlotCount}
    (hlisted : slotKey (index - 1) = some listed) (hwritten : slotKey index = some written) :
    listed ≠ written := by
  rintro rfl
  have heq := (slotKey_val hlisted).symm.trans (slotKey_val hwritten)
  have hlt := index.toNat_lt
  rw [UInt8.toNat_sub, show (1 : UInt8).toNat = 1 from rfl] at heq
  omega

/-- The service after slot `key` was saved. -/
def withSaved (s : State) (key : Fin wifiSlotCount) (ssid password : Bytes) : State :=
  { s with slots := Function.update s.slots key ⟨some ssid, some password⟩ }

/-- What the list says of the slots around a save. -/
theorem reported_withSaved {env : Env} (hread : env.openRead = .ok) (base : Services) (s : State)
    {key : Fin wifiSlotCount} {ssid : Bytes} (hne : ssid ≠ []) (hlen : ssid.length < 33)
    (password : Bytes) {number : UInt8} {shown : Fin wifiSlotCount}
    (hshown : slotKey (number - 1) = some shown) :
    reported base env (withSaved s key ssid password) number =
      if shown = key then
        some (slotTlvs ⟨true, (key : Int) == s.lastSuccessfulSlot, (key : Int) == getActiveSlot s,
          ssid⟩)
      else reported base env s number := by
  rw [reported_eq hread, reported_eq hread, hshown, Option.map_some, Option.map_some]
  split
  · next heq =>
    rw [heq, slotInfo_eq hread, show slotSsid (withSaved s key ssid password) key = some ssid from
      slotSsid_update_self hlen hne]
    rfl
  · next hother =>
    exact congrArg (fun info => some (slotTlvs info))
      (slotInfo_congr hread (slotSsid_update_of_ne hother _) rfl rfl)

/-- **What a connect request does after the save of its slot.** -/
theorem connect_after_save {base : Services} {env : Env} {s : State} {q : Bytes} {value : UInt32}
    {ssid password : Bytes} (hworks : Works env s) (hq : tlvU32 q .wifiSlot = some value)
    {key : Fin wifiSlotCount} (hkey : slotKey value.toUInt8 = some key) (hne : ssid ≠ [])
    (hlen : ssid.length < 33) (hplen : password.length < 65) :
    Answer.Success (connectRequest base env q (withSaved s key ssid password)).2 ∧
      (connectRequest base env q (withSaved s key ssid password)).1.commands =
        (withSaved s key ssid password).commands ++ [value.toUInt8] ∧
      let u := processConnectSlot env value.toUInt8
        (connectRequest base env q (withSaved s key ssid password)).1
      if ssid.length < 32 ∧ password.length < 64 then
        u.state = .connecting ∧ u.config = some (ssid, password)
      else u.state = .disconnected := by
  have hworks' : Works env (withSaved s key ssid password) :=
    ⟨hworks.openRead, hworks.queueAccepts, hworks.setConfig, hworks.connect, hworks.hasQueue⟩
  have hsaved : slotSsid (withSaved s key ssid password) key = some ssid :=
    slotSsid_update_self hlen hne
  obtain ⟨hstate, hok⟩ :=
    @connectRequest_eq base env q value hq (withSaved s key ssid password)
  have hspec := connectSlot_spec hworks' value.toUInt8
  rw [if_pos ⟨key, hkey, by rw [hsaved]; rfl⟩] at hspec
  rw [hspec] at hstate hok
  refine ⟨hok.mpr rfl, by rw [hstate], ?_⟩
  rw [hstate]
  have hworks'' : Works env { withSaved s key ssid password with
      commands := (withSaved s key ssid password).commands ++ [value.toUInt8] } :=
    ⟨hworks.openRead, hworks.queueAccepts, hworks.setConfig, hworks.connect, hworks.hasQueue⟩
  exact processConnectSlot_spec hworks'' hkey (Function.update_self ..) hne hlen hplen

/-- **The three requests agree on a slot value exactly where it makes no difference.** -/
theorem wifi_slot_numbering_iff {base : Services} {env : Env} {s : State} {p q : Bytes}
    {value : UInt32} {ssid : Bytes} (hworks : Works env s)
    (hp : tlvU32 p .wifiSlot = some value) (hssid : tlvString p .wifiSsid 33 = some ssid)
    (hq : tlvU32 q .wifiSlot = some value) :
    OneNumbering base env s p q value ssid ((tlvString p .wifiPassword 65).getD []) ↔
      Agrees env s value ssid ((tlvString p .wifiPassword 65).getD []) := by
  have hread := hworks.openRead
  have hlen : ssid.length < 33 := Nat.lt_succ_of_le (length_tlvString_le hssid)
  have hplen := length_password_le p
  have hsuccess := @saveRequest_success_iff base env p value ssid hp hssid s
  have hconnect := fun u : State => @connectRequest_eq base env q value hq u
  have htoNat : value ≤ 3 → value.toUInt8.toNat = value.toNat := by
    intro h3
    rw [UInt32.le_iff_toNat_le, show (3 : UInt32).toNat = 3 from rfl] at h3
    rw [UInt32.toNat_toUInt8, Nat.mod_eq_of_lt (by omega)]
  have hunder : ∀ {number : UInt8}, value ≤ 3 → number.toNat = value.toNat →
      number = value.toUInt8 := fun h3 hnumber =>
    UInt8.toNat_inj.mp (hnumber.trans (htoNat h3).symm)
  constructor
  · intro h
    refine ⟨fun listed written hlisted hwritten h1 h3 hne hwrites => ?_, fun hout key hkey => ?_⟩
    · have hdiff := listed_ne_written hlisted hwritten
      have hok := hsuccess.mpr ⟨listed, written, hlisted, hwritten, h1, h3, hne, hwrites⟩
      have hstate := saveRequest_state hp hssid hok hwritten
      have hsaved := h.saved hok
      rw [hstate] at hsaved
      obtain ⟨⟨number, preferred, active, hnumber, hvalue⟩, hothers, index, -, rfl, -, hindex,
        hconn, -⟩ := hsaved
      rw [hunder h3 hnumber] at hvalue
      have hvalue := (reported_withSaved hread base s hne hlen _ hlisted).symm.trans hvalue
      rw [if_neg hdiff, reported_eq hread, hlisted, Option.map_some, Option.some.injEq] at hvalue
      have hnext := hothers (value.toUInt8 + 1) fun heq => ?_
      · have hkey : slotKey (value.toUInt8 + 1 - 1) = some written := by
          rwa [UInt8.add_sub_cancel]
        have hnext := (reported_withSaved hread base s hne hlen _ hkey).symm.trans hnext
        rw [if_pos rfl, reported_eq hread, hkey, Option.map_some, Option.some.injEq] at hnext
        obtain ⟨-, hcommands, hfits⟩ :=
          @connect_after_save base env s q value ssid _ hworks hq written hwritten hne hlen hplen
        obtain rfl : value.toUInt8 = index :=
          List.singleton_injective (List.append_cancel_left (hcommands.symm.trans hindex))
        refine ⟨slotSsid_of_slotTlvs hread hvalue rfl, slotSsid_of_slotTlvs hread hnext.symm rfl, ?_⟩
        by_contra hlong
        dsimp only at hfits
        rw [if_neg hlong] at hfits
        cases hfits.symm.trans hconn
      · have h := hunder h3 heq
        have hlt := value.toUInt8.toNat_lt
        have hne := congrArg UInt8.toNat h
        rw [UInt8.toNat_add, show (1 : UInt8).toNat = 1 from rfl] at hne
        omega
    · obtain ⟨-, hfails, -⟩ := h.unlisted ((unlisted_iff hread base s value).mpr hout)
      cases hs : slotSsid s key with
      | none => rfl
      | some found =>
        have hspec := connectSlot_spec hworks value.toUInt8
        rw [if_pos ⟨key, hkey, by rw [hs]; rfl⟩] at hspec
        exact absurd ((hconnect s).2.mpr (by rw [hspec])) hfails
  · intro h
    refine ⟨fun hok => ?_, fun hnone => ?_⟩
    · obtain ⟨listed, written, hlisted, hwritten, h1, h3, hne, hwrites⟩ := hsuccess.mp hok
      have hdiff := listed_ne_written hlisted hwritten
      obtain ⟨hold, hsame, hfits, hpfits⟩ := h.saved listed written hlisted hwritten h1 h3 hne hwrites
      rw [saveRequest_state hp hssid hok hwritten]
      obtain ⟨hconnok, hcommands, hu⟩ :=
        @connect_after_save base env s q value ssid _ hworks hq written hwritten hne hlen hplen
      dsimp only at hu
      rw [if_pos ⟨hfits, hpfits⟩] at hu
      refine ⟨⟨value.toUInt8, (listed : Int) == s.lastSuccessfulSlot,
        (listed : Int) == getActiveSlot s, htoNat h3, ?_⟩, fun number hnumber => ?_, ?_⟩
      · refine (reported_withSaved hread base s hne hlen _ hlisted).trans ?_
        rw [if_neg hdiff, reported_eq hread, hlisted, Option.map_some, slotInfo_eq hread, hold]
        rfl
      · cases hshown : slotKey (number - 1) with
        | none => rw [reported_eq hread, reported_eq hread, hshown, Option.map_none, Option.map_none]
        | some shown =>
          refine (reported_withSaved hread base s hne hlen _ hshown).trans ?_
          split
          · next heq =>
            rw [reported_eq hread, hshown, heq, Option.map_some, slotInfo_eq hread, hsame]
            rfl
          · rfl
      · exact ⟨_, _, rfl, hconnok, hcommands, hu⟩
    · have hout := (unlisted_iff hread base s value).mp hnone
      obtain ⟨hstate, hfails⟩ := (@saveRequest_eq base env p value ssid hp hssid s).1 hout
      have hspec := connectSlot_spec hworks value.toUInt8
      rw [if_neg ?_] at hspec
      · exact ⟨⟨hfails, hstate⟩, fun hok => hspec.2 ((hconnect s).2.mp hok),
          (hconnect s).1.trans hspec.1⟩
      · rintro ⟨key, hkey, hsome⟩
        rw [h.unlisted hout key hkey] at hsome
        cases hsome

/-! ## Two saves -/

/-- A device on which every call works. -/
def workingEnv : Env := ⟨.ok, .ok, .ok, .ok, .ok, true, .ok, .ok⟩

/-- A service whose slots all hold this. -/
def filled (slot : StoredSlot) : State := ⟨fun _ => slot, -1, -1, .idle, true, [], none⟩

/-- A request for a slot, to save the network "a" or to connect. -/
def slotPayload (value : UInt32) : Bytes :=
  [⟨.wifiSlot, u32Bytes value⟩, ⟨.wifiSsid, ascii "a"⟩].flatMap TlvEntry.encode

/-- Slot 1 and slot 2 hold the network that is saved once more. -/
theorem wifi_slot_numbering_same :
    OneNumbering default workingEnv (filled ⟨some (ascii "a"), some []⟩) (slotPayload 1)
      (slotPayload 1) 1 (ascii "a") [] :=
  (@wifi_slot_numbering_iff default workingEnv (filled ⟨some (ascii "a"), some []⟩)
    (slotPayload 1) (slotPayload 1) 1 (ascii "a") ⟨rfl, rfl, rfl, rfl, rfl⟩ (by decide +kernel)
    (by decide +kernel) (by decide +kernel)).mpr
      ⟨fun listed written hlisted hwritten _ _ _ _ =>
        ⟨rfl, rfl, by decide +kernel, by decide +kernel⟩,
        fun hout => absurd hout (by decide)⟩

/-- **The three requests do not agree**: what is saved under 1 is listed under 2,
and 256, which is never listed, connects with the slot listed under 1. -/
theorem wifi_slots_disagree :
    ¬ OneNumbering default workingEnv (filled ⟨none, none⟩) (slotPayload 1) (slotPayload 1) 1
      (ascii "a") [] ∧
    ¬ OneNumbering default workingEnv (filled ⟨some (ascii "a"), some []⟩) (slotPayload 256)
      (slotPayload 256) 256 (ascii "a") [] := by
  constructor
  · intro h
    have hok : Answer.Success
        (saveRequest default workingEnv (slotPayload 1) (filled ⟨none, none⟩)).2 := by
      rintro e ⟨⟩
    obtain ⟨⟨number, preferred, active, hnumber, hvalue⟩, -, -⟩ := h.saved hok
    obtain rfl : number = 1 := UInt8.toNat_inj.mp hnumber
    have hlisted : reported default workingEnv
        (saveRequest default workingEnv (slotPayload 1) (filled ⟨none, none⟩)).1 1 =
          some (slotTlvs ⟨false, false, false, []⟩) := by decide +kernel
    cases hlisted.symm.trans hvalue
  · intro h
    obtain ⟨-, -, hsame⟩ := h.unlisted fun number hnumber =>
      absurd number.toNat_lt (by rw [hnumber]; decide)
    have hqueued : (connectRequest default workingEnv (slotPayload 256)
        (filled ⟨some (ascii "a"), some []⟩)).1.commands = [0] := by decide +kernel
    rw [hsame] at hqueued
    cases hqueued

end Jukeboy.CompanionApi.WifiSlots
