import Jukeboy.CompanionApi.Authorisation

/-! # The trusted clients and the session

No two slots hold one client, and an authenticated session belongs to a client
whose record is stored, as long as no revocation erases that record and then
fails: the session ends only when the whole revocation succeeds. -/
namespace Jukeboy.CompanionApi.Revocation

open Jukeboy.Base Jukeboy.Base.Runs
open Jukeboy.CompanionApi.Tlv Jukeboy.CompanionApi.Protocol Jukeboy.CompanionApi.TrustedStore
open Jukeboy.CompanionApi.ServiceHandlers Jukeboy.CompanionApi.RequestHandlers
open Jukeboy.CompanionApi.Task Jukeboy.CompanionApi.Authorisation
open Jukeboy.CompanionApi.Chunking (encodeRequest)
open Jukeboy.CompanionApi.RxBuffer (Request RxEvent)

/-! ## Records -/

/-- The record of a slot, when NVS reads do not fail. -/
def recordAt (store : Store) (slot : Fin maxTrustedClients) : Option Record :=
  (store slot).filter fun r => r.version == recordVersion && r.valid != 0

/-- NVS reads do not fail. -/
def Readable (nvs : Nvs) : Prop := ∀ site slot, nvs.loads site slot = true

theorem loadRecord_eq {nvs : Nvs} (h : Readable nvs) (store : Store) (site : LoadSite)
    (slot : Fin maxTrustedClients) : loadRecord nvs store site slot = recordAt store slot := by
  rw [loadRecord, if_pos (h site slot), recordAt]

theorem findRecord_found {nvs : Nvs} (h : Readable nvs) {store : Store} {clientId : Bytes}
    {slot : Fin maxTrustedClients} {r : Record}
    (hfind : findRecord nvs store clientId = .ok (slot, r)) :
    recordAt store slot = some r ∧ r.clientId = clientId := by
  unfold findRecord at hfind
  split at hfind
  · cases hfind
  split at hfind
  · next found hfound =>
    cases hfind
    obtain ⟨slot', -, hmap⟩ := List.exists_of_findSome?_eq_some hfound
    obtain ⟨r', hr', heq⟩ := Option.map_eq_some_iff.mp hmap
    obtain ⟨rfl, rfl⟩ := Prod.mk.inj heq
    obtain ⟨hload, hid⟩ := Option.filter_eq_some_iff.mp hr'
    exact ⟨(loadRecord_eq h ..).symm.trans hload, beq_iff_eq.mp hid⟩
  · cases hfind

theorem findRecord_missing {nvs : Nvs} (h : Readable nvs) {store : Store} {clientId : Bytes}
    {err : EspErr} (hid : clientId ≠ []) (hfind : findRecord nvs store clientId = .error err)
    {slot : Fin maxTrustedClients} {r : Record} (hr : recordAt store slot = some r) :
    r.clientId ≠ clientId := by
  unfold findRecord at hfind
  rw [if_neg hid] at hfind
  split at hfind
  · cases hfind
  · next hnone =>
    rintro rfl
    have hslot := List.findSome?_eq_none_iff.mp hnone slot (List.mem_finRange slot)
    rw [loadRecord_eq h, hr, Option.filter_some, if_pos (beq_self_eq_true _)] at hslot
    cases hslot

/-- No two slots hold records of one client. -/
def Distinct (store : Store) : Prop :=
  ∀ i j r q, recordAt store i = some r → recordAt store j = some q →
    r.clientId = q.clientId → i = j

theorem distinct_empty : Distinct fun _ => none := by
  intro i j r q hr
  cases hr

/-- A record of the client is stored. -/
def Stored (store : Store) (clientId : Bytes) : Prop :=
  ∃ slot r, recordAt store slot = some r ∧ r.clientId = clientId

/-- **The invariant** of the trusted clients and the session. -/
structure Trusted (s : Session) : Prop where
  distinct : Distinct s.store
  active : s.authenticated = true → Stored s.store s.activeClientId

theorem Trusted.congr {s t : Session} (h : Trusted s) (hstore : t.store = s.store)
    (hauth : t.authenticated = true → s.authenticated = true ∧ t.activeClientId = s.activeClientId) :
    Trusted t := by
  refine ⟨hstore ▸ h.distinct, fun ht => ?_⟩
  obtain ⟨hs, hactive⟩ := hauth ht
  rw [hstore, hactive]
  exact h.active hs

theorem recordAt_update {store : Store} {slot i : Fin maxTrustedClients} (h : i ≠ slot)
    (r : Option Record) : recordAt (Function.update store slot r) i = recordAt store i := by
  rw [recordAt, Function.update_of_ne h, recordAt]

theorem recordAt_update_self (store : Store) (slot : Fin maxTrustedClients) (r : Option Record) :
    recordAt (Function.update store slot r) slot =
      r.filter fun r => r.version == recordVersion && r.valid != 0 := by
  rw [recordAt, Function.update_self]

/-- Erasing slots keeps the records distinct. -/
theorem Distinct.erase {store store' : Store} (h : Distinct store)
    (herase : ∀ i, store' i = store i ∨ store' i = none) : Distinct store' := by
  have hold : ∀ i r, recordAt store' i = some r → recordAt store i = some r := by
    intro i r hr
    rw [recordAt] at hr ⊢
    rcases herase i with heq | heq
    · rwa [heq] at hr
    · rw [heq] at hr
      cases hr
  intro i j r q hr hq hid
  exact h i j r q (hold i r hr) (hold j q hq) hid

/-! ## Storing -/

theorem slotForRecord_spec {nvs : Nvs} (h : Readable nvs) {store : Store} {clientId : Bytes}
    (hid : clientId ≠ []) {slot : Fin maxTrustedClients}
    (hslot : slotForRecord nvs store clientId = some slot) :
    (∃ r, recordAt store slot = some r ∧ r.clientId = clientId) ∨
      recordAt store slot = none ∧ ¬ Stored store clientId := by
  unfold slotForRecord at hslot
  split at hslot
  · next r hfind =>
    cases hslot
    exact .inl ⟨r, findRecord_found h hfind⟩
  · next err hfind =>
    refine .inr ⟨?_, ?_⟩
    · have hfree := List.find?_some hslot
      rw [loadRecord_eq h] at hfree
      exact Option.isNone_iff_eq_none.mp hfree
    · rintro ⟨i, r, hr, heq⟩
      exact findRecord_missing h hid hfind hr heq

/-- What storing a record does: nothing, or a record in the slot of the client. -/
theorem storeRecord_spec (nvs : Nvs) (store : Store) (now : Int) (clientId appName secret : Bytes) :
    (storeRecord nvs store now clientId appName secret).store = store ∧
        (storeRecord nvs store now clientId appName secret).err ≠ .ok ∨
      ∃ slot r, clientId ≠ [] ∧ slotForRecord nvs store clientId = some slot ∧
        (storeRecord nvs store now clientId appName secret).store =
          Function.update store slot (some r) ∧
        (r.version == recordVersion && r.valid != 0) = true ∧ r.clientId = clientId := by
  unfold storeRecord
  split
  · exact .inl ⟨rfl, fun h => by cases h⟩
  · next hid =>
    split
    · exact .inl ⟨rfl, fun h => by cases h⟩
    · next slot hslot =>
      split
      · next hopen => exact .inl ⟨rfl, hopen⟩
      · split
        · next hset => exact .inl ⟨rfl, hset⟩
        · exact .inr ⟨slot, _, hid, hslot, rfl, rfl, rfl⟩

/-- A stored record takes the client's own slot or a free one. -/
theorem stored_update {nvs : Nvs} (h : Readable nvs) {store : Store} {slot : Fin maxTrustedClients}
    {r : Record} (hid : r.clientId ≠ [])
    (hslot : slotForRecord nvs store r.clientId = some slot) (hd : Distinct store)
    (hvalid : (r.version == recordVersion && r.valid != 0) = true) :
    Distinct (Function.update store slot (some r)) ∧
      Stored (Function.update store slot (some r)) r.clientId ∧
      ∀ clientId, Stored store clientId → Stored (Function.update store slot (some r)) clientId := by
  have hself : recordAt (Function.update store slot (some r)) slot = some r := by
    rw [recordAt_update_self, Option.filter_some, if_pos hvalid]
  have hspec := slotForRecord_spec h hid hslot
  -- another slot holds no record of the client
  have hother : ∀ i q, i ≠ slot → recordAt store i = some q → q.clientId ≠ r.clientId := by
    intro i q hne hq heq
    rcases hspec with ⟨old, hold, holdid⟩ | ⟨-, hnone⟩
    · exact hne (hd i slot q old hq hold (heq.trans holdid.symm))
    · exact hnone ⟨i, q, hq, heq⟩
  refine ⟨?_, ⟨slot, r, hself, rfl⟩, ?_⟩
  · intro i j p q hp hq heq
    by_cases hi : i = slot
    · by_cases hj : j = slot
      · rw [hi, hj]
      · rw [hi, hself] at hp
        rw [recordAt_update hj] at hq
        exact absurd (heq.symm.trans (by rw [Option.some.inj hp])) (hother j q hj hq)
    · by_cases hj : j = slot
      · rw [hj, hself] at hq
        rw [recordAt_update hi] at hp
        exact absurd (heq.trans (by rw [Option.some.inj hq])) (hother i p hi hp)
      · rw [recordAt_update hi] at hp
        rw [recordAt_update hj] at hq
        exact hd i j p q hp hq heq
  · rintro clientId ⟨i, q, hq, rfl⟩
    by_cases hi : i = slot
    · subst hi
      rcases hspec with ⟨old, hold, holdid⟩ | ⟨hnone, -⟩
      · rw [hq] at hold
        rw [Option.some.inj hold]
        exact ⟨i, r, hself, holdid.symm⟩
      · rw [hnone] at hq
        cases hq
    · exact ⟨i, q, (recordAt_update hi _).trans hq, rfl⟩

/-! ## Erasing -/

/-- The erase of a slot ends the loop of `companion_api_revoke_all_internal`. -/
def eraseStops (nvs : Nvs) (slot : Fin maxTrustedClients) : Bool :=
  match nvs.eraseFails slot with
  | none => false
  | some err => err != .ok && err != .nvsNotFound

theorem eraseKey_cases (nvs : Nvs) (store : Store) (slot : Fin maxTrustedClients) :
    (∃ err, nvs.eraseFails slot = some err ∧ eraseKey nvs store slot = (store, err)) ∨
      nvs.eraseFails slot = none ∧ ∃ err, (err = .ok ∨ err = .nvsNotFound) ∧
        eraseKey nvs store slot = (Function.update store slot none, err) := by
  unfold eraseKey
  split
  · next err herr => exact .inl ⟨err, herr, rfl⟩
  · next hnone =>
    refine .inr ⟨hnone, _, ?_, rfl⟩
    split
    · exact .inl rfl
    · exact .inr rfl

/-- What erasing the record of one client does. -/
theorem revokeClient_spec {nvs : Nvs} (h : Readable nvs) (store : Store) (clientId : Bytes) :
    (revokeClient nvs store clientId).store = store ∨
      ∃ slot r, findRecord nvs store clientId = .ok (slot, r) ∧
        recordAt store slot = some r ∧ r.clientId = clientId ∧
        (revokeClient nvs store clientId).store = Function.update store slot none ∧
        nvs.openWrite = .ok ∧ nvs.eraseFails slot = none ∧
        (revokeClient nvs store clientId).recounted = true ∧
        (revokeClient nvs store clientId).err = nvs.commit := by
  unfold revokeClient
  split
  · exact .inl rfl
  · next slot r hfind =>
    obtain ⟨hr, hid⟩ := findRecord_found h hfind
    split
    · exact .inl rfl
    · next hopen =>
      rcases eraseKey_cases nvs store slot with ⟨err, -, heq⟩ | ⟨hnone, err, herr, heq⟩
      · rw [heq]
        exact .inl rfl
      · rw [heq]
        dsimp only
        rw [if_pos herr]
        exact .inr ⟨slot, r, hfind, hr, hid, rfl, of_not_not hopen, hnone, rfl, rfl⟩

/-- The erase loop keeps or erases each slot, and reports success only at its end. -/
theorem eraseAll_each (nvs : Nvs) (slots : List (Fin maxTrustedClients)) {store store' : Store}
    {err : EspErr} (h : eraseAll nvs slots store = (store', err)) :
    (∀ i, store' i = store i ∨ store' i = none) ∧
      (err ≠ .ok → ∃ k ∈ slots, eraseStops nvs k = true) := by
  induction slots generalizing store with
  | nil =>
    cases h
    exact ⟨fun i => .inl rfl, fun hne => absurd rfl hne⟩
  | cons slot rest ih =>
    rw [eraseAll] at h
    rcases eraseKey_cases nvs store slot with ⟨e, hfails, heq⟩ | ⟨-, e, he, heq⟩
    · rw [heq] at h
      dsimp only at h
      split at h
      · next hstop =>
        cases h
        refine ⟨fun i => .inl rfl, fun _ => ⟨slot, List.mem_cons_self .., ?_⟩⟩
        rw [eraseStops, hfails]
        simp [hstop]
      · obtain ⟨heach, hstop⟩ := ih h
        exact ⟨heach, fun hne => (hstop hne).imp fun k hk => ⟨List.mem_cons_of_mem _ hk.1, hk.2⟩⟩
    · rw [heq] at h
      dsimp only at h
      rw [if_neg (by rcases he with rfl | rfl <;> simp)] at h
      obtain ⟨heach, hstop⟩ := ih h
      refine ⟨fun i => ?_,
        fun hne => (hstop hne).imp fun k hk => ⟨List.mem_cons_of_mem _ hk.1, hk.2⟩⟩
      by_cases hi : i = slot
      · subst hi
        rcases heach i with hkept | hgone
        · exact .inr (hkept.trans (Function.update_self ..))
        · exact .inr hgone
      · rcases heach i with hkept | hgone
        · exact .inl (hkept.trans (Function.update_of_ne hi ..))
        · exact .inr hgone

/-- A slot the loop has changed was erased, none before it stopped the loop, and
an error comes from one after it. -/
theorem eraseAll_gone (nvs : Nvs) {slots : List (Fin maxTrustedClients)}
    (hsorted : slots.Pairwise (· < ·)) {store store' : Store} {err : EspErr}
    (h : eraseAll nvs slots store = (store', err)) {slot : Fin maxTrustedClients}
    (hne : store' slot ≠ store slot) :
    slot ∈ slots ∧ nvs.eraseFails slot = none ∧
      (∀ k ∈ slots, k < slot → eraseStops nvs k = false) ∧
      (err ≠ .ok → ∃ k, slot < k ∧ eraseStops nvs k = true) := by
  induction slots generalizing store with
  | nil =>
    cases h
    exact absurd rfl hne
  | cons a rest ih =>
    obtain ⟨hhead, hsorted⟩ := List.pairwise_cons.mp hsorted
    rw [eraseAll] at h
    rcases eraseKey_cases nvs store a with ⟨e, hfails, heq⟩ | ⟨hnone, e, he, heq⟩
    · rw [heq] at h
      dsimp only at h
      split at h
      · cases h
        exact absurd rfl hne
      · next hgo =>
        obtain ⟨hmem, hslot, hbefore, hafter⟩ := ih hsorted h hne
        refine ⟨List.mem_cons_of_mem _ hmem, hslot, fun k hk hlt => ?_, hafter⟩
        rcases List.mem_cons.mp hk with rfl | hk
        · rw [eraseStops, hfails]
          simpa using hgo
        · exact hbefore k hk hlt
    · rw [heq] at h
      dsimp only at h
      rw [if_neg (by rcases he with rfl | rfl <;> simp)] at h
      by_cases hslot : slot = a
      · subst hslot
        refine ⟨List.mem_cons_self .., hnone, fun k hk hlt => ?_, fun herr => ?_⟩
        · rcases List.mem_cons.mp hk with rfl | hk
          · exact absurd hlt (lt_irrefl _)
          · exact absurd hlt (lt_asymm (hhead k hk))
        · obtain ⟨k, hk, hstop⟩ := (eraseAll_each nvs rest h).2 herr
          exact ⟨k, hhead k hk, hstop⟩
      · have hkept : Function.update store a none slot = store slot := Function.update_of_ne hslot ..
        obtain ⟨hmem, hgone, hbefore, hafter⟩ := ih hsorted h (hkept ▸ hne)
        refine ⟨List.mem_cons_of_mem _ hmem, hgone, fun k hk hlt => ?_, hafter⟩
        rcases List.mem_cons.mp hk with rfl | hk
        · rw [eraseStops, hnone]
        · exact hbefore k hk hlt

/-- What erasing all records does, once NVS is open. -/
theorem revokeAll_spec {nvs : Nvs} (hopen : nvs.openWrite = .ok) {store store' : Store}
    {err : EspErr} (h : eraseAll nvs (List.finRange maxTrustedClients) store = (store', err)) :
    (revokeAll nvs store).store = store' ∧
      (revokeAll nvs store).err = if err = .ok then nvs.commit else err := by
  unfold revokeAll
  rw [if_neg (not_not.mpr hopen), h]
  exact ⟨rfl, rfl⟩

/-! ## Revocations that are cut short -/

/-- The revocation erases the record of the session's client, and its commit fails. -/
def CutShort (nvs : Nvs) (s : Session) (clientId : Bytes) : Prop :=
  s.authenticated = true ∧ s.activeClientId = clientId ∧ nvs.openWrite = .ok ∧
    nvs.commit ≠ .ok ∧
    ∃ found ∈ (findRecord nvs s.store clientId).toOption, nvs.eraseFails found.1 = none

/-- The revocation of all clients erases the record of the session's client, and a
later erase or the commit fails. -/
def AllCutShort (nvs : Nvs) (s : Session) : Prop :=
  s.authenticated = true ∧ nvs.openWrite = .ok ∧
    ∃ slot, ((recordAt s.store slot).any fun r => r.clientId == s.activeClientId) = true ∧
      nvs.eraseFails slot = none ∧ (∀ k < slot, eraseStops nvs k = false) ∧
      (nvs.commit ≠ .ok ∨ ∃ k, slot < k ∧ eraseStops nvs k = true)

theorem afterStore_session (s : Session) (nvs : Nvs) (r : StoreResult) :
    (s.afterStore nvs r).store = r.store ∧
      (s.afterStore nvs r).authenticated = s.authenticated ∧
      (s.afterStore nvs r).activeClientId = s.activeClientId := by
  unfold Session.afterStore
  split
  · exact ⟨rfl, rfl, rfl⟩
  · exact ⟨rfl, rfl, rfl⟩

/-- A session that is dropped, or whose client's record is kept, is sound after a
revocation. -/
theorem Trusted.revoked {s : Session} {nvs : Nvs} {r : StoreResult} (h : Trusted s) {drop : Prop}
    [Decidable drop] (hstore : ∀ i, r.store i = s.store i ∨ r.store i = none)
    (hkept : ¬ drop → s.authenticated = true → Stored r.store s.activeClientId) :
    Trusted ((if drop then s.dropActive else s).afterStore nvs r) := by
  obtain ⟨hst, hauth, hactive⟩ := afterStore_session (if drop then s.dropActive else s) nvs r
  refine ⟨hst ▸ h.distinct.erase hstore, fun ht => ?_⟩
  rw [hauth] at ht
  rw [hst, hactive]
  split at ht
  · cases ht
  · next hdrop =>
    rw [if_neg hdrop]
    exact hkept hdrop ht

theorem trusted_revokeClient {inp : Inputs} {s : Session} {clientId : Bytes} (h : Trusted s)
    (hread : Readable inp.nvs) (hwhole : ¬ CutShort inp.nvs s clientId) :
    Trusted (revokeClientInternal inp clientId s).session := by
  rcases revokeClient_spec hread s.store clientId with hsame |
    ⟨slot, r, hfind, hr, hid, hstore, hopen, herase, hrecounted, herr⟩
  · refine h.revoked (fun i => .inl (congrFun hsame i)) fun _ hauth => ?_
    rw [hsame]
    exact h.active hauth
  · refine h.revoked (fun i => ?_) fun hdrop hauth => ?_
    · rw [hstore]
      by_cases hi : i = slot
      · rw [hi]
        exact .inr (Function.update_self ..)
      · exact .inl (Function.update_of_ne hi ..)
    · by_cases hactive : s.activeClientId = clientId
      · refine absurd ⟨hauth, hactive, hopen, fun hcommit => ?_, ?_⟩ hwhole
        · exact hdrop ⟨hrecounted, herr.trans hcommit, hactive⟩
        · rw [hfind]
          exact ⟨(slot, r), rfl, herase⟩
      · obtain ⟨i, q, hq, hqid⟩ := h.active hauth
        refine ⟨i, q, ?_, hqid⟩
        rw [hstore, recordAt_update ?_, hq]
        rintro rfl
        rw [hr] at hq
        obtain rfl := Option.some.inj hq
        exact hactive (hqid.symm.trans hid)

theorem trusted_revokeAll {inp : Inputs} {s : Session} (h : Trusted s)
    (hwhole : ¬ AllCutShort inp.nvs s) : Trusted (revokeAllInternal inp s).session := by
  by_cases hopen : inp.nvs.openWrite = .ok
  · generalize hloop : eraseAll inp.nvs (List.finRange maxTrustedClients) s.store = q
    obtain ⟨store, err⟩ := q
    have hrevoke := revokeAll_spec hopen hloop
    obtain ⟨heach, hstop⟩ := eraseAll_each inp.nvs _ hloop
    refine h.revoked (fun i => hrevoke.1 ▸ heach i) fun hdrop hauth => ?_
    obtain ⟨i, q, hq, hqid⟩ := h.active hauth
    rw [hrevoke.1]
    by_cases hkept : store i = s.store i
    · exact ⟨i, q, by rw [recordAt, hkept]; exact hq, hqid⟩
    · obtain ⟨-, herase, hbefore, hafter⟩ :=
        eraseAll_gone inp.nvs (List.pairwise_lt_finRange _) hloop hkept
      refine absurd ⟨hauth, hopen, i, ?_, herase, fun k hk => hbefore k (List.mem_finRange k) hk,
        ?_⟩ hwhole
      · rw [hq, Option.any_some, hqid, beq_self_eq_true]
      · rw [hrevoke.2] at hdrop
        by_cases herr : err = .ok
        · rw [if_pos herr] at hdrop
          exact .inl hdrop
        · exact .inr (hafter herr)
  · have hsame : (revokeAll inp.nvs s.store).store = s.store := by
      rw [revokeAll, if_pos hopen]
    refine h.revoked (fun i => .inl (congrFun hsame i)) fun _ hauth => ?_
    rw [hsame]
    exact h.active hauth

/-! ## Exactly those are cut short -/

/-- A loop that reports success was stopped by no slot. -/
theorem eraseAll_ok (nvs : Nvs) {slots : List (Fin maxTrustedClients)} {store store' : Store}
    (h : eraseAll nvs slots store = (store', .ok)) : ∀ k ∈ slots, eraseStops nvs k = false := by
  induction slots generalizing store with
  | nil =>
    intro _ h
    cases h
  | cons slot rest ih =>
    rw [eraseAll] at h
    rcases eraseKey_cases nvs store slot with ⟨e, hfails, heq⟩ | ⟨hnone, e, he, heq⟩
    · rw [heq] at h
      dsimp only at h
      split at h
      · next hstop =>
        obtain ⟨-, rfl⟩ := Prod.mk.inj h
        exact absurd rfl hstop.1
      · next hgo =>
        refine List.forall_mem_cons.mpr ⟨?_, ih h⟩
        rw [eraseStops, hfails]
        simpa using hgo
    · rw [heq] at h
      dsimp only at h
      rw [if_neg (by rcases he with rfl | rfl <;> simp)] at h
      exact List.forall_mem_cons.mpr ⟨by rw [eraseStops, hnone], ih h⟩

/-- The loop erases a slot that nothing before it keeps it from. -/
theorem eraseAll_erases (nvs : Nvs) {slots : List (Fin maxTrustedClients)}
    (hsorted : slots.Pairwise (· < ·)) {store store' : Store} {err : EspErr}
    (h : eraseAll nvs slots store = (store', err)) {slot : Fin maxTrustedClients}
    (hmem : slot ∈ slots) (herase : nvs.eraseFails slot = none)
    (hbefore : ∀ k < slot, eraseStops nvs k = false) : store' slot = none := by
  induction slots generalizing store with
  | nil => cases hmem
  | cons a rest ih =>
    obtain ⟨hhead, hsorted⟩ := List.pairwise_cons.mp hsorted
    rw [eraseAll] at h
    rcases eraseKey_cases nvs store a with ⟨e, hfails, heq⟩ | ⟨-, e, he, heq⟩
    · rw [heq] at h
      dsimp only at h
      have hrest : slot ∈ rest := by
        refine (List.mem_cons.mp hmem).resolve_left ?_
        rintro rfl
        rw [hfails] at herase
        cases herase
      have hgo := hbefore a (hhead slot hrest)
      rw [eraseStops, hfails] at hgo
      rw [if_neg (by simpa using hgo)] at h
      exact ih hsorted h hrest
    · rw [heq] at h
      dsimp only at h
      rw [if_neg (by rcases he with rfl | rfl <;> simp)] at h
      rcases List.mem_cons.mp hmem with rfl | hrest
      · rcases (eraseAll_each nvs rest h).1 slot with hkept | hgone
        · exact hkept.trans (Function.update_self ..)
        · exact hgone
      · exact ih hsorted h hrest

/-- A session whose client's only record is erased and that is not dropped is not sound. -/
theorem not_trusted_of_erased {s : Session} {nvs : Nvs} {r : StoreResult} (h : Trusted s)
    (hauth : s.authenticated = true) (hstore : ∀ i, r.store i = s.store i ∨ r.store i = none)
    {slot : Fin maxTrustedClients} {q : Record} (hq : recordAt s.store slot = some q)
    (hid : q.clientId = s.activeClientId) (hgone : r.store slot = none) :
    ¬ Trusted (s.afterStore nvs r) := by
  intro hafter
  obtain ⟨hst, hauth', hactive⟩ := afterStore_session s nvs r
  obtain ⟨i, p, hp, hpid⟩ := hafter.active (hauth'.trans hauth)
  rw [hst] at hp
  rcases hstore i with hsame | hnone
  · rw [recordAt, hsame] at hp
    obtain rfl := h.distinct i slot p q hp hq (hpid.trans (hactive.trans hid.symm))
    rw [← hsame, hgone] at hp
    cases hp
  · rw [recordAt, hnone] at hp
    cases hp

/-- A revocation that is cut short leaves the session without its record. -/
theorem not_trusted_of_cutShort {inp : Inputs} {s : Session} {clientId : Bytes} (h : Trusted s)
    (hread : Readable inp.nvs) (hcut : CutShort inp.nvs s clientId) :
    ¬ Trusted (revokeClientInternal inp clientId s).session := by
  obtain ⟨hauth, hactive, hopen, hcommit, ⟨slot, q⟩, hfind, herase⟩ := hcut
  replace hfind : findRecord inp.nvs s.store clientId = .ok (slot, q) := by
    cases hf : findRecord inp.nvs s.store clientId with
    | error err =>
      rw [hf] at hfind
      cases hfind
    | ok found =>
      rw [hf] at hfind
      rw [Option.some.inj hfind]
  obtain ⟨hq, hid⟩ := findRecord_found hread hfind
  have hrevoke : revokeClient inp.nvs s.store clientId =
      ⟨Function.update s.store slot none, inp.nvs.commit, true⟩ := by
    have hkey : ∃ err, (err = .ok ∨ err = .nvsNotFound) ∧
        eraseKey inp.nvs s.store slot = (Function.update s.store slot none, err) := by
      rcases eraseKey_cases inp.nvs s.store slot with ⟨err, hfails, -⟩ | ⟨-, hkey⟩
      · rw [herase] at hfails
        cases hfails
      · exact hkey
    obtain ⟨err, herr, heq⟩ := hkey
    rw [revokeClient, hfind]
    dsimp only
    rw [if_neg (not_not.mpr hopen), heq]
    dsimp only
    rw [if_pos herr]
  rw [revokeClientInternal, hrevoke]
  dsimp only
  rw [if_neg fun hdrop => hcommit hdrop.2.1]
  refine not_trusted_of_erased h hauth (fun i => ?_) hq (hid.trans hactive.symm)
    (Function.update_self ..)
  by_cases hi : i = slot
  · rw [hi]
    exact .inr (Function.update_self ..)
  · exact .inl (Function.update_of_ne hi ..)

theorem not_trusted_of_allCutShort {inp : Inputs} {s : Session} (h : Trusted s)
    (hcut : AllCutShort inp.nvs s) : ¬ Trusted (revokeAllInternal inp s).session := by
  obtain ⟨hauth, hopen, slot, hslot, herase, hbefore, hfail⟩ := hcut
  obtain ⟨q, hq, hid⟩ : ∃ q, recordAt s.store slot = some q ∧
      (q.clientId == s.activeClientId) = true := by
    cases hq : recordAt s.store slot with
    | none =>
      rw [hq] at hslot
      cases hslot
    | some q =>
      rw [hq] at hslot
      exact ⟨q, rfl, hslot⟩
  generalize hloop : eraseAll inp.nvs (List.finRange maxTrustedClients) s.store = p
  obtain ⟨store, err⟩ := p
  have hrevoke := revokeAll_spec hopen hloop
  have herr : (revokeAll inp.nvs s.store).err ≠ .ok := by
    rw [hrevoke.2]
    split
    · next hok =>
      refine hfail.resolve_right ?_
      rintro ⟨k, -, hstop⟩
      rw [eraseAll_ok inp.nvs (hok ▸ hloop) k (List.mem_finRange k)] at hstop
      cases hstop
    · next hne => exact hne
  rw [revokeAllInternal]
  dsimp only
  rw [if_neg herr]
  refine not_trusted_of_erased h hauth (fun i => ?_) hq (eq_of_beq hid) ?_
  · rw [hrevoke.1]
    exact (eraseAll_each inp.nvs _ hloop).1 i
  · rw [hrevoke.1]
    exact eraseAll_erases inp.nvs (List.pairwise_lt_finRange _) hloop (List.mem_finRange slot)
      herase hbefore

/-! ## The other operations -/

theorem Trusted.say {s : Session} (h : Trusted s) (r : Reply) : Trusted (Outcome.say s r).session :=
  h

theorem trusted_completePairing {inp : Inputs} {s : Session} (h : Trusted s)
    (hread : Readable inp.nvs) : Trusted (completePairing inp s).session := by
  unfold completePairing
  split
  · exact h
  · dsimp only
    generalize hr : storeRecord inp.nvs s.store inp.time s.pairing.clientId s.pairing.appName
      s.pairing.secret = r
    obtain ⟨hst, hauth, hactive⟩ := afterStore_session s inp.nvs r
    rcases storeRecord_spec inp.nvs s.store inp.time s.pairing.clientId s.pairing.appName
        s.pairing.secret with ⟨hsame, herr⟩ | ⟨slot, q, hid, hslot, hstore, hvalid, hq⟩
    · rw [hr] at hsame herr
      rw [if_pos herr]
      refine h.congr (hst.trans hsame) fun ht => ⟨hauth ▸ ht, hactive⟩
    · rw [hr] at hstore
      rw [← hq] at hid hslot
      obtain ⟨hd, hnew, hold⟩ := stored_update hread hid hslot h.distinct hvalid
      rw [hq] at hnew
      split
      · refine ⟨?_, fun ht => ?_⟩
        · rw [hst, hstore]
          exact hd
        · rw [hst, hactive, hstore]
          exact hold _ (h.active (hauth ▸ ht))
      · refine ⟨?_, fun _ => ?_⟩
        · change Distinct (s.afterStore inp.nvs r).store
          rw [hst, hstore]
          exact hd
        · change Stored (s.afterStore inp.nvs r).store s.pairing.clientId
          rw [hst, hstore]
          exact hnew

theorem trusted_applyPairingButton {inp : Inputs} {s : Session} (h : Trusted s)
    (hread : Readable inp.nvs) (button : UInt8) :
    Trusted (applyPairingButton inp button s).session := by
  have hkeep : ∀ p : Pairing, Trusted { s with pairing := p } :=
    fun p => h.congr rfl fun ht => ⟨ht, rfl⟩
  unfold applyPairingButton
  dsimp only
  split
  · exact h
  · split
    · exact hkeep {}
    · split
      · exact hkeep _
      · split
        · exact trusted_completePairing (hkeep _) hread
        · exact hkeep _

theorem trusted_handleAuthProof {hmac : Hmac} {inp : Inputs} {s : Session} (h : Trusted s)
    (hread : Readable inp.nvs) (link : Nat) (r : Request) :
    Trusted (handleAuthProof hmac inp link r s).session := by
  unfold handleAuthProof
  dsimp only
  split
  · next clientId proof hid hproof =>
    split
    · exact h
    · split
      · exact h
      · next slot record hfind =>
        split
        · exact h
        · exact ⟨h.distinct, fun _ => ⟨slot, record, findRecord_found hread hfind⟩⟩
  · exact h

/-- The request is a revocation that is cut short. -/
def RequestCutShort (nvs : Nvs) (s : Session) (r : Request) : Prop :=
  Opcode.ofCode r.opcode = some .trustedRevoke ∧
    ∃ clientId ∈ tlvString r.payload .clientId (clientIdMaxLen + 1), CutShort nvs s clientId

theorem trusted_handleTrustedRevoke {inp : Inputs} {s : Session} (h : Trusted s)
    (hread : Readable inp.nvs) {r : Request} (hop : Opcode.ofCode r.opcode = some .trustedRevoke)
    (hwhole : ¬ RequestCutShort inp.nvs s r) : Trusted (handleTrustedRevoke inp r s).session := by
  unfold handleTrustedRevoke
  split
  · exact h
  · next clientId hid =>
    have hrevoked := trusted_revokeClient h hread fun hcut => hwhole ⟨hop, clientId, hid, hcut⟩
    dsimp only
    split
    · exact hrevoked
    · exact hrevoked

theorem trusted_dispatch {hmac : Hmac} {w : World} {s : Session} (h : Trusted s)
    (hread : Readable w.inputs.nvs) (link : Nat) {r : Request}
    (hwhole : ¬ RequestCutShort w.inputs.nvs s r) :
    Trusted (dispatch hmac w link r s).session := by
  have hkeep : ∀ p : Pairing, Trusted { s with pairing := p } :=
    fun p => h.congr rfl fun ht => ⟨ht, rfl⟩
  unfold dispatch
  split
  · exact h
  · exact h
  · unfold handlePing
    split
    · exact h
    · exact h
  · unfold handlePairBegin
    dsimp only
    split
    · split
      · exact h
      · split
        · exact h
        · exact hkeep _
    · exact h
  · exact h
  · exact hkeep {}
  · unfold handleAuthChallenge
    dsimp only
    split
    · exact h
    · split
      · exact h
      · exact h.congr rfl fun ht => ⟨ht, rfl⟩
  · exact trusted_handleAuthProof h hread link r
  · exact h
  · next hop => exact trusted_handleTrustedRevoke h hread hop hwhole
  · exact h
  · exact h

theorem trusted_handleRequest {hmac : Hmac} {w : World} {s : Session} (h : Trusted s)
    (hread : Readable w.inputs.nvs) (link : Nat) {r : Request}
    (hwhole : ¬ RequestCutShort w.inputs.nvs s r) :
    Trusted (handleRequest hmac w link r s).session := by
  unfold handleRequest
  split
  · exact h
  · exact trusted_dispatch h hread link hwhole

/-! ## Runs -/

/-- The event is no revocation that is cut short. -/
def EventWhole (nvs : Nvs) (s : Session) : RxEvent → Prop
  | .request r => ¬ RequestCutShort nvs s r
  | _ => True

/-- No request of a chunk is a revocation that is cut short. -/
def EventsWhole (hmac : Hmac) (env : Nat → World) (link : Nat) :
    Nat → List RxEvent → State → Prop
  | _, [], _ => True
  | k, event :: events, s =>
    EventWhole (env k).inputs.nvs s.session event ∧
      EventsWhole hmac env link (k + 1) events (applyRxEvent hmac (env k) link event s)

/-- **The condition under which the session ends with its client's record**: no
revocation, from the client or the console, erases the record the session is
authenticated for and then fails. -/
def RevokesWhole (hmac : Hmac) (s : State) (t : Turn) : Prop :=
  match t.action with
  | .message (.rxChunk link bytes) =>
    EventsWhole hmac t.env link 0 (RxBuffer.handleRxChunk s.rxBuffer bytes).1
      { s with log := s.log ++ [.received link] }
  | .message (.consoleRevokeClient clientId) =>
    ¬ CutShort (t.env 0).inputs.nvs s.session clientId
  | .message .consoleRevokeAll => ¬ AllCutShort (t.env 0).inputs.nvs s.session
  | _ => True

theorem trusted_rxEvent {hmac : Hmac} {w : World} {s : State} (h : Trusted s.session)
    (hread : Readable w.inputs.nvs) (link : Nat) {event : RxEvent}
    (hwhole : EventWhole w.inputs.nvs s.session event) :
    Trusted (applyRxEvent hmac w link event s).session := by
  cases event with
  | overflow => exact (finish_session ..).symm ▸ h
  | resync => exact h
  | sendError opcode requestId e => exact (finish_session ..).symm ▸ h
  | request r =>
    change Trusted (finish w (handleRequest hmac w link r s.session) s).session
    rw [finish_session]
    exact trusted_handleRequest h hread link hwhole

theorem trusted_rxEvents {hmac : Hmac} {env : Nat → World}
    (hread : ∀ k, Readable (env k).inputs.nvs) (link : Nat) {events : List RxEvent} {k : Nat}
    {s : State} (h : Trusted s.session) (hwhole : EventsWhole hmac env link k events s) :
    Trusted (applyRxEvents hmac env link k events s).session := by
  induction events generalizing k s with
  | nil => exact h
  | cons event events ih => exact ih (trusted_rxEvent h (hread k) link hwhole.1) hwhole.2

theorem trusted_msgOutcome {w : World} {s : Session} (h : Trusted s)
    (hread : Readable w.inputs.nvs) (m : Msg)
    (hclient : ∀ clientId, m = .consoleRevokeClient clientId → ¬ CutShort w.inputs.nvs s clientId)
    (hall : m = .consoleRevokeAll → ¬ AllCutShort w.inputs.nvs s) :
    Trusted (msgOutcome w s m).session := by
  cases m with
  | hidButton button => exact trusted_applyPairingButton h hread button
  | consoleConfirmPairing => exact trusted_completePairing h hread
  | consoleCancelPairing => exact h.congr rfl fun ht => ⟨ht, rfl⟩
  | consoleRevokeClient clientId => exact trusted_revokeClient h hread (hclient clientId rfl)
  | consoleRevokeAll => exact trusted_revokeAll h (hall rfl)
  | linkDisconnected => exact ⟨h.distinct, fun h => by cases h⟩
  | rxChunk _ _ | linkConnected | stateEvent _ => exact h

theorem trusted_step {hmac : Hmac} {s t : State} {a : Turn} (h : Trusted s.session)
    (hread : ∀ k, Readable (a.env k).inputs.nvs) (hwhole : RevokesWhole hmac s a)
    (hstep : step hmac s a = some t) : Trusted t.session := by
  obtain ⟨action, env⟩ := a
  obtain rfl := Option.some.inj hstep
  cases action with
  | timer =>
    unfold timerTurn
    dsimp only
    split
    · change Trusted (sendHeartbeat (env 1) (expirePairing (env 0) s)).session
      rw [sendHeartbeat, finish_session]
      change Trusted (expirePairing (env 0) s).session
      unfold expirePairing
      split
      · rw [finish_session]
        exact h.congr rfl fun ht => ⟨ht, rfl⟩
      · exact h
    · exact h
  | message m =>
    cases m with
    | rxChunk link bytes =>
      exact trusted_rxEvents hread link (show Trusted { s with log := _ }.session from h) hwhole
    | consoleRevokeClient clientId =>
      refine (finish_session ..).symm ▸ trusted_msgOutcome h (hread 0) _ ?_ (fun h => by cases h)
      rintro _ ⟨⟩
      exact hwhole
    | consoleRevokeAll =>
      exact (finish_session ..).symm ▸ trusted_msgOutcome h (hread 0) _ (fun _ h => by cases h)
        fun _ => hwhole
    | hidButton _ | consoleConfirmPairing | consoleCancelPairing | linkConnected
    | linkDisconnected | stateEvent _ =>
      exact (finish_session ..).symm ▸ trusted_msgOutcome h (hread 0) _ (fun _ h => by cases h)
        (fun h => by cases h)

/-- **The trusted clients and the session agree** in every run whose revocations
are whole, with NVS reads that work and any pattern of failing writes, erases and
commits, from any store that holds no client twice; and a revocation that is cut
short breaks this at once. -/
theorem trusted_clients_invariant (hmac : Hmac) {store : Store} (hstore : Distinct store)
    (count : UInt8) (now : UInt32) {turns : List Turn} {s : State}
    (hread : ∀ t ∈ turns, ∀ k, Readable (t.env k).inputs.nvs)
    (hC : Along (step hmac) (RevokesWhole hmac) (initState store count now) turns)
    (hrun : run (step hmac) (initState store count now) turns = some s) :
    Distinct s.session.store ∧
      (s.session.authenticated = true → Stored s.session.store s.session.activeClientId) ∧
      (∀ inp clientId, Readable inp.nvs → CutShort inp.nvs s.session clientId →
        ¬ Trusted (revokeClientInternal inp clientId s.session).session) ∧
      ∀ inp, AllCutShort inp.nvs s.session →
        ¬ Trusted (revokeAllInternal inp s.session).session := by
  have hC' : Along (step hmac)
      (fun s t => RevokesWhole hmac s t ∧ ∀ k, Readable (t.env k).inputs.nvs)
      (initState store count now) turns := by
    refine along_iff.mpr fun pre a post t heq hpre => ⟨along_iff.mp hC pre a post t heq hpre, ?_⟩
    exact hread a (heq ▸ List.mem_append_right _ (List.mem_cons_self ..))
  have h0 : Trusted (initState store count now).session := ⟨hstore, fun h => by cases h⟩
  have h := @run_invariant _ _ (step hmac) _ (fun s => Trusted s.session)
    (fun _ _ _ h hC hs => trusted_step h hC.2 hC.1 hs) _ _ _ h0 hC' hrun
  exact ⟨h.distinct, h.active, fun _ _ hread hcut => not_trusted_of_cutShort h hread hcut,
    fun _ hcut => not_trusted_of_allCutShort h hcut⟩

/-! ## Two revocations

Link 1 has paired; the console revokes its client, and the commit succeeds or fails. -/

instance (nvs : Nvs) (s : Session) (clientId : Bytes) : Decidable (CutShort nvs s clientId) :=
  inferInstanceAs (Decidable (_ ∧ _ ∧ _ ∧ _ ∧ _))

instance (nvs : Nvs) (s : Session) : Decidable (AllCutShort nvs s) :=
  inferInstanceAs (Decidable (_ ∧ _ ∧ _))

instance (nvs : Nvs) (s : Session) (r : Request) : Decidable (RequestCutShort nvs s r) :=
  inferInstanceAs (Decidable (_ ∧ _))

instance (nvs : Nvs) (s : Session) : (event : RxEvent) → Decidable (EventWhole nvs s event)
  | .request r => inferInstanceAs (Decidable (¬ RequestCutShort nvs s r))
  | .overflow | .resync | .sendError .. => .isTrue trivial

instance decidableEventsWhole (hmac : Hmac) (env : Nat → World) (link : Nat) :
    (k : Nat) → (events : List RxEvent) → (s : State) →
      Decidable (EventsWhole hmac env link k events s)
  | _, [], _ => .isTrue trivial
  | k, event :: events, s =>
    have := decidableEventsWhole hmac env link (k + 1) events
      (applyRxEvent hmac (env k) link event s)
    inferInstanceAs (Decidable (_ ∧ EventsWhole hmac env link (k + 1) events _))

instance (hmac : Hmac) (s : State) : (t : Turn) → Decidable (RevokesWhole hmac s t)
  | ⟨.message (.rxChunk link _), env⟩ =>
    inferInstanceAs (Decidable (EventsWhole hmac env link 0 _ _))
  | ⟨.message (.consoleRevokeClient clientId), env⟩ =>
    inferInstanceAs (Decidable (¬ CutShort (env 0).inputs.nvs s.session clientId))
  | ⟨.message .consoleRevokeAll, env⟩ =>
    inferInstanceAs (Decidable (¬ AllCutShort (env 0).inputs.nvs s.session))
  | ⟨.message (.hidButton _), _⟩ | ⟨.message .consoleConfirmPairing, _⟩
  | ⟨.message .consoleCancelPairing, _⟩ | ⟨.message .linkConnected, _⟩
  | ⟨.message .linkDisconnected, _⟩ | ⟨.message (.stateEvent _), _⟩ | ⟨.timer, _⟩ =>
    .isTrue trivial

/-- The console revokes client "a" with a commit that gives `commit`. -/
def revokeTurn (commit : EspErr) : Turn :=
  ⟨.message (.consoleRevokeClient (ascii "a")), fun _ =>
    { silentWorld with
      inputs := { silentWorld.inputs with nvs := { Nvs.working with commit } } }⟩

theorem trusted_clients_invariant_revoke :
    ∃ s, run (step default) (initState (fun _ => none) 0 0) (pairing ++ [revokeTurn .ok]) = some s ∧
      (s.session.authenticated = true → Stored s.session.store s.session.activeClientId) := by
  obtain ⟨s, hrun⟩ : ∃ s, run (step default) (initState (fun _ => none) 0 0)
      (pairing ++ [revokeTurn .ok]) = some s := Option.isSome_iff_exists.mp rfl
  refine ⟨s, hrun, (trusted_clients_invariant default distinct_empty 0 0 ?_
    (by decide +kernel) hrun).2.1⟩
  intro t ht k site slot
  simp only [pairing, List.cons_append, List.nil_append, List.mem_cons, List.not_mem_nil,
    or_false] at ht
  rcases ht with rfl | rfl | rfl | rfl <;> rfl

/-- **A revocation that fails leaves the session**: the record is erased, the
commit fails, and the session stays authenticated for the client. -/
theorem revoked_client_stays_authenticated :
    ∃ s, (∀ t ∈ pairing ++ [revokeTurn .fail], ∀ k, Readable (t.env k).inputs.nvs) ∧
      run (step default) (initState (fun _ => none) 0 0) (pairing ++ [revokeTurn .fail]) =
        some s ∧
      s.session.authenticated = true ∧ ¬ Stored s.session.store s.session.activeClientId := by
  have hchecked : ((run (step default) (initState (fun _ => none) 0 0)
      (pairing ++ [revokeTurn .fail])).map fun s => (s.session.authenticated,
        (List.finRange maxTrustedClients).all fun i => (recordAt s.session.store i).isNone)) =
          some (true, true) := by
    decide +kernel
  obtain ⟨s, hrun, hs⟩ := Option.map_eq_some_iff.mp hchecked
  obtain ⟨hauth, hgone⟩ := Prod.mk.inj hs
  refine ⟨s, ?_, hrun, hauth, ?_⟩
  · intro t ht k site slot
    simp only [pairing, List.cons_append, List.nil_append, List.mem_cons, List.not_mem_nil,
      or_false] at ht
    rcases ht with rfl | rfl | rfl | rfl <;> rfl
  · rintro ⟨i, r, hr, -⟩
    have hnone := List.all_eq_true.mp hgone i (List.mem_finRange i)
    rw [hr] at hnone
    cases hnone

end Jukeboy.CompanionApi.Revocation
