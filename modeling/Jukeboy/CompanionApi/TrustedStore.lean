import Mathlib.Data.Fintype.Basic
import Mathlib.Data.List.FinRange
import Jukeboy.CompanionApi.Tlv

/-! # The trusted clients in NVS

Four slots of `companion_api_trusted_record_t`. Every access can fail; a write
or an erase that reports success takes effect at once, whatever the commit
after it returns. -/
namespace Jukeboy.CompanionApi.TrustedStore
open Jukeboy.Base Jukeboy.CompanionApi.Tlv

def maxTrustedClients : Nat := 4
def clientIdMaxLen : Nat := 36
def appNameMaxLen : Nat := 32
def secretLen : Nat := 32
def recordVersion : UInt32 := 1

/-- `companion_api_trusted_record_t`; the two names as C strings. -/
structure Record where
  version : UInt32
  valid : UInt8
  clientId : Bytes
  appName : Bytes
  secret : Bytes
  createdAtUnix : UInt32
deriving DecidableEq, Repr

/-- The slots; `none` is a missing key, or a blob whose size the loader rejects
as it does a missing key. -/
abbrev Store := Fin maxTrustedClients → Option Record

/-- Where a record is loaded from, to tell the failures of different loops apart. -/
inductive LoadSite where
  | find | freeSlot | recount | listCount | list
deriving DecidableEq, Repr

/-- What the NVS calls of one request return. -/
structure Nvs where
  loads : LoadSite → Fin maxTrustedClients → Bool
  openWrite : EspErr
  setBlob : EspErr
  /-- `nvs_erase_key` fails with this error. -/
  eraseFails : Fin maxTrustedClients → Option EspErr
  commit : EspErr

/-- NVS with no failing call. -/
def Nvs.working : Nvs :=
  { loads := fun _ _ => true, openWrite := .ok, setBlob := .ok, eraseFails := fun _ => none
    commit := .ok }

variable (nvs : Nvs) (store : Store)

/-- `companion_api_load_record`. -/
def loadRecord (site : LoadSite) (slot : Fin maxTrustedClients) : Option Record :=
  if nvs.loads site slot then
    (store slot).filter fun r => r.version == recordVersion && r.valid != 0
  else none

/-- `companion_api_count_trusted_clients`. -/
def countTrustedClients (site : LoadSite) : UInt8 :=
  .ofNat ((List.finRange maxTrustedClients).countP fun slot =>
    (loadRecord nvs store site slot).isSome)

/-- `companion_api_find_record`: the slot and its record. -/
def findRecord (clientId : Bytes) : Except EspErr (Fin maxTrustedClients × Record) :=
  if clientId = [] then .error .invalidArg
  else
    match (List.finRange maxTrustedClients).findSome? fun slot =>
      ((loadRecord nvs store .find slot).filter (·.clientId == clientId)).map (slot, ·) with
    | some found => .ok found
    | none => .error .notFound

/-- The slot `companion_api_store_record` writes to. -/
def slotForRecord (clientId : Bytes) : Option (Fin maxTrustedClients) :=
  match findRecord nvs store clientId with
  | .ok (slot, _) => some slot
  | .error _ => (List.finRange maxTrustedClients).find? fun slot =>
      (loadRecord nvs store .freeSlot slot).isNone

/-- `companion_api_unix_time_or_zero`. -/
def unixTimeOrZero (now : Int) : UInt32 :=
  if now ≤ 0 ∨ now > 2 ^ 32 - 1 then 0 else .ofInt now

/-- What `companion_api_store_record` and the revocations leave: the store, the
error, and whether they got as far as recounting and touching the generation. -/
structure StoreResult where
  store : Store
  err : EspErr
  recounted : Bool

/-- `companion_api_store_record`. -/
def storeRecord (now : Int) (clientId appName secret : Bytes) : StoreResult :=
  if clientId = [] then ⟨store, .invalidArg, false⟩
  else match slotForRecord nvs store clientId with
  | none => ⟨store, .noMem, false⟩
  | some slot =>
    if nvs.openWrite ≠ .ok then ⟨store, nvs.openWrite, false⟩
    else if nvs.setBlob ≠ .ok then ⟨store, nvs.setBlob, true⟩
    else
      ⟨Function.update store slot (some
        { version := recordVersion, valid := 1, clientId, appName, secret
          createdAtUnix := unixTimeOrZero now }), nvs.commit, true⟩

/-- `nvs_erase_key` of a slot. -/
def eraseKey (slot : Fin maxTrustedClients) : Store × EspErr :=
  match nvs.eraseFails slot with
  | some err => (store, err)
  | none =>
    (Function.update store slot none, if (store slot).isSome then .ok else .nvsNotFound)

/-- `companion_api_revoke_client_internal` on the store. -/
def revokeClient (clientId : Bytes) : StoreResult :=
  match findRecord nvs store clientId with
  | .error _ => ⟨store, .notFound, false⟩
  | .ok (slot, _) =>
    if nvs.openWrite ≠ .ok then ⟨store, nvs.openWrite, false⟩
    else
      let (store, err) := eraseKey nvs store slot
      ⟨store, if err = .ok ∨ err = .nvsNotFound then nvs.commit else err, true⟩

/-- The erase loop of `companion_api_revoke_all_internal`. -/
def eraseAll : List (Fin maxTrustedClients) → Store → Store × EspErr
  | [], store => (store, .ok)
  | slot :: slots, store =>
    let (store, err) := eraseKey nvs store slot
    if err ≠ .ok ∧ err ≠ .nvsNotFound then (store, err) else eraseAll slots store

/-- `companion_api_revoke_all_internal` on the store. -/
def revokeAll : StoreResult :=
  if nvs.openWrite ≠ .ok then ⟨store, nvs.openWrite, false⟩
  else
    let (store, err) := eraseAll nvs (List.finRange maxTrustedClients) store
    let err := if err = .ok then nvs.commit else err
    ⟨store, err, decide (err = .ok)⟩

/-! ## What a record that was found is -/

theorem loadRecord_eq_some {nvs : Nvs} {store : Store} {site : LoadSite}
    {slot : Fin maxTrustedClients} {r : Record} (h : loadRecord nvs store site slot = some r) :
    store slot = some r := by
  unfold loadRecord at h
  split at h
  · exact (Option.filter_eq_some_iff.mp h).1
  · cases h

theorem findRecord_ok {nvs : Nvs} {store : Store} {clientId : Bytes}
    {slot : Fin maxTrustedClients} {r : Record}
    (h : findRecord nvs store clientId = .ok (slot, r)) :
    store slot = some r ∧ r.clientId = clientId := by
  unfold findRecord at h
  split at h
  · cases h
  split at h
  · next found hfound =>
    cases h
    obtain ⟨slot', -, hmap⟩ := List.exists_of_findSome?_eq_some hfound
    obtain ⟨r', hr', heq⟩ := Option.map_eq_some_iff.mp hmap
    obtain ⟨rfl, rfl⟩ := Prod.mk.inj heq
    obtain ⟨hload, hid⟩ := Option.filter_eq_some_iff.mp hr'
    exact ⟨loadRecord_eq_some hload, beq_iff_eq.mp hid⟩
  · cases h

end Jukeboy.CompanionApi.TrustedStore
