import Jukeboy.Wifi.Slots

/-! # Saved credentials and the driver

A save takes an SSID and a password that fit buffers of 33 and 65 bytes with a terminator;
the fields of the driver have 32 and 64 bytes and need none, but are filled by the same copy
of a terminated string. -/
namespace Jukeboy.Wifi.Slots

open Jukeboy.Base Jukeboy.CompanionApi.Tlv
open Jukeboy.CompanionApi.ServiceHandlers (wifiSlotCount)

variable {env env' : Env} {index : UInt8} {key : Fin wifiSlotCount} {ssid password : Bytes}
  {s t u : State}

/-- A connect command applies the SSID and the password, and the driver connects. -/
structure Issues (env : Env) (index : UInt8) (u : State) (ssid password : Bytes) : Prop where
  returns : (connectSavedSlot env index u).2 = .ok
  config : (connectSavedSlot env index u).1.config = some (ssid, password)
  state : (processConnectSlot env index u).state = .connecting

/-- What a save that reports success promises. -/
structure Usable (ssid password : Bytes) : Prop where
  /-- A connect to the slot, as long as it holds what was saved, issues it. -/
  issues : ∀ env index key s t, slotKey index = some key →
    saveSlot env index ssid password s = (t, .ok) →
    ∀ env' u, Works env' u → u.slots key = t.slots key → Issues env' index u ssid password
  /-- Not every attempt is refused. -/
  notRefused : ∀ env index key s t, slotKey index = some key →
    saveSlot env index ssid password s = (t, .ok) →
    ∃ env' u, u.slots key = t.slots key ∧ (connectSavedSlot env' index u).2 = .ok

/-! ## One connect -/

theorem nvsLoadSlot_saved (hread : env.openRead = .ok) (hkey : slotKey index = some key)
    (hslot : s.slots key = ⟨some ssid, some password⟩) (hne : ssid ≠ []) (hlen : ssid.length < 33)
    (hplen : password.length < 65) : nvsLoadSlot env index true s = .ok (ssid, password) := by
  simp [nvsLoadSlot, hkey, hread, hslot, nvsGetStr, hlen, hplen, hne, failIf, bind, Except.bind]

/-- The driver's fields are too short for what the slot holds, whatever the calls return. -/
theorem connectSavedSlot_refused (hkey : slotKey index = some key)
    (hslot : s.slots key = ⟨some ssid, some password⟩) (hne : ssid ≠ []) (hlen : ssid.length < 33)
    (hplen : password.length < 65) (h : ¬ (ssid.length < 32 ∧ password.length < 64)) :
    (connectSavedSlot env index s).2 ≠ .ok ∧ (connectSavedSlot env index s).1 = s := by
  unfold connectSavedSlot
  by_cases hread : env.openRead = .ok
  · rw [nvsLoadSlot_saved hread hkey hslot hne hlen hplen]
    unfold connectWithCredentials copyCString
    rw [hkey]
    by_cases hfits : ssid.length < 32
    · have hpfits : ¬ password.length < 64 := fun hp => h ⟨hfits, hp⟩
      simp [hfits, hpfits]
    · simp [hfits]
  · cases hload : nvsLoadSlot env index true s with
    | error err =>
      refine ⟨fun herr => ?_, rfl⟩
      have herr : err = .ok := herr
      rw [herr] at hload
      exact nvsLoadSlot_ne_ok env index true s hload
    | ok loaded => simp [nvsLoadSlot, hkey, hread, failIf, bind, Except.bind] at hload

theorem issues_of_fits (hworks : Works env s) (hkey : slotKey index = some key)
    (hslot : s.slots key = ⟨some ssid, some password⟩) (hne : ssid ≠ [])
    (hlen : ssid.length < 32) (hplen : password.length < 64) : Issues env index s ssid password := by
  have hload := nvsLoadSlot_saved hworks.openRead hkey hslot hne (by omega) (by omega)
  have hconnect : connectSavedSlot env index s =
      ({ s with
        config := some (ssid, password), currentSlot := index.toNat, state := .connecting }, .ok) := by
    unfold connectSavedSlot
    rw [hload]
    unfold connectWithCredentials copyCString
    simp [hkey, hlen, hplen, hworks.setConfig, hworks.connect]
  constructor
  · rw [hconnect]
  · rw [hconnect]
  · unfold processConnectSlot
    rw [hconnect]
    rfl

/-- A slot after a save that reports success. -/
theorem saved_slot (hkey : slotKey index = some key)
    (hsave : saveSlot env index ssid password s = (t, .ok)) :
    t.slots key = ⟨some ssid, some password⟩ := by
  obtain ⟨key', hkey', -, -, -, -, rfl⟩ := saveSlot_ok_iff.mp hsave
  obtain rfl : key = key' := Option.some.inj (hkey.symm.trans hkey')
  exact Function.update_self ..

/-! ## Every call succeeds -/

def allSucceeds : Env := ⟨.ok, .ok, .ok, .ok, .ok, true, .ok, .ok⟩

/-- A device with nothing saved. -/
def nothingSaved : State where
  slots _ := ⟨none, none⟩
  lastSuccessfulSlot := -1
  currentSlot := -1
  state := .idle
  hasQueue := true
  commands := []
  config := none

theorem works_allSucceeds (hqueue : s.hasQueue = true) : Works allSucceeds s :=
  ⟨rfl, rfl, rfl, rfl, hqueue⟩

theorem save_succeeds (hne : ssid ≠ []) (hlen : ssid.length < 33) (hplen : password.length < 65) :
    ∃ t, saveSlot allSucceeds 0 ssid password nothingSaved = (t, .ok) := by
  have hwrites : Writes allSucceeds := ⟨rfl, rfl, rfl, rfl⟩
  exact ⟨_, saveSlot_ok_iff.mpr ⟨0, rfl, hne, hlen, hplen, hwrites, rfl⟩⟩

/-- **Credentials.** A save of an SSID of 1 to 32 bytes and a password of up to 64 leaves a
slot that can be used exactly when a terminator fits the driver's fields too. -/
theorem usable_iff (ssid password : Bytes) (hssid : 1 ≤ ssid.length ∧ ssid.length ≤ 32)
    (hpassword : password.length ≤ 64) :
    Usable ssid password ↔ ssid.length < 32 ∧ password.length < 64 := by
  have hne : ssid ≠ [] := List.length_pos_iff.mp hssid.1
  constructor
  · intro h
    by_contra hfits
    obtain ⟨t, hsave⟩ :=
      save_succeeds hne (Nat.lt_succ_of_le hssid.2) (Nat.lt_succ_of_le hpassword)
    obtain ⟨env', u, hslot, hok⟩ := h.notRefused allSucceeds 0 0 nothingSaved t rfl hsave
    have hsaved : t.slots 0 = ⟨some ssid, some password⟩ := saved_slot rfl hsave
    exact (connectSavedSlot_refused rfl (hslot.trans hsaved) hne (Nat.lt_succ_of_le hssid.2)
      (Nat.lt_succ_of_le hpassword) hfits).1 hok
  · rintro ⟨hlen, hplen⟩
    constructor
    · intro env index key s t hkey hsave env' u hworks hslot
      rw [saved_slot hkey hsave] at hslot
      exact issues_of_fits hworks hkey hslot hne hlen hplen
    · intro env index key s t hkey hsave
      have hworks : Works allSucceeds { t with hasQueue := true } := works_allSucceeds rfl
      have hslot : t.slots key = ⟨some ssid, some password⟩ := saved_slot hkey hsave
      exact ⟨allSucceeds, { t with hasQueue := true }, rfl,
        (issues_of_fits hworks hkey hslot hne hlen hplen).returns⟩

theorem usable_home : Usable (ascii "home network") (ascii "correct horse") :=
  (usable_iff _ _ (by decide) (by decide)).mpr (by decide)

/-- On a fresh device the save succeeds, and no connect to the slot, whatever the calls
return, gets as far as the driver. -/
def Refused (ssid password : Bytes) : Prop :=
  ∃ t, saveSlot allSucceeds 0 ssid password nothingSaved = (t, .ok) ∧
    (∀ env u, u.slots 0 = t.slots 0 →
      (connectSavedSlot env 0 u).2 ≠ .ok ∧ (connectSavedSlot env 0 u).1 = u) ∧
    ¬ Usable ssid password

theorem refused_of_full (hne : ssid ≠ []) (hlen : ssid.length < 33) (hplen : password.length < 65)
    (hfull : ¬ (ssid.length < 32 ∧ password.length < 64)) : Refused ssid password := by
  obtain ⟨t, hsave⟩ := save_succeeds hne hlen hplen
  have hrefused (env : Env) (u : State) (hslot : u.slots 0 = t.slots 0) :
      (connectSavedSlot env 0 u).2 ≠ .ok ∧ (connectSavedSlot env 0 u).1 = u :=
    connectSavedSlot_refused rfl (hslot.trans (saved_slot rfl hsave)) hne hlen hplen hfull
  refine ⟨t, hsave, hrefused, fun h => ?_⟩
  obtain ⟨env, u, hslot, hok⟩ := h.notRefused allSucceeds 0 0 nothingSaved t rfl hsave
  exact (hrefused env u hslot).1 hok

/-- An SSID of 32 bytes with no password, and a short one with a password of 64. -/
theorem saved_and_refused :
    Refused (List.replicate 32 97) [] ∧ Refused (ascii "home") (List.replicate 64 48) :=
  ⟨refused_of_full (by decide) (by decide) (by decide) (by decide),
    refused_of_full (by decide +kernel) (by decide +kernel) (by decide +kernel)
      (by decide +kernel)⟩

end Jukeboy.Wifi.Slots
