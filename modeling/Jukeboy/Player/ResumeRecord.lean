import Jukeboy.Player.StateInvariant

/-! # The resume record

The record is kept twice: in RTC memory, which every caching and persisting call
writes and a power cycle may lose, and in NVS, which only a persisting call
writes. A load prefers the RTC copy and falls back to NVS, and either copy that
belongs to another cartridge clears both. -/
namespace Jukeboy.Player.ResumeRecord

open Jukeboy.Base Jukeboy.Formats.Jbm Jukeboy.Player.Track Jukeboy.Player.State
open Jukeboy.Player.StateInvariant (Current calmEnv threeTracks)

variable {p q : Service} {env env' : Env} {status : ResumeState}

/-! ## The two copies -/

structure Copies where
  rtc : Option ResumeState
  nvs : Option ResumeBlob

/-- The service with the record as the two copies hold it. -/
def withCopies (p : Service) (c : Copies) : Service :=
  { p with resumeRtc := c.rtc, resumeNvs := c.nvs }

def copiesOf (p : Service) : Copies := ⟨p.resumeRtc, p.resumeNvs⟩

/-- A caching or a persisting call in some state of the service, or the loss of
RTC memory. -/
inductive Action where
  | cache (p : Service) (env : Env)
  | persist (p : Service) (env : Env)
  | loseRtc

def step (c : Copies) : Action → Copies
  | .cache p env => copiesOf ((withCopies p c).cacheCurrentPlaybackStatus env)
  | .persist p env => copiesOf ((withCopies p c).persistCurrentPlaybackStatus env).2
  | .loseRtc => { c with rtc := none }

def run (c : Copies) (as : List Action) : Copies := as.foldl step c

/-- The record a call builds. -/
def recorded : Action → Option ResumeState
  | .cache p env | .persist p env => p.buildResumeState env.cartridge
  | .loseRtc => none

def Action.isLoss : Action → Bool
  | .loseRtc => true
  | _ => false

/-- The call gets as far as `nvs_commit`. -/
def reachesCommit : Action → Bool
  | .persist p env =>
    (p.buildResumeState env.cartridge).isSome && env.nvs.openWrite == .ok && env.nvs.setBlob == .ok
  | _ => false

/-! ## What a call leaves -/

theorem build_withCopies (p : Service) (c : Copies) (cart : Cartridge) :
    (withCopies p c).buildResumeState cart = p.buildResumeState cart := rfl

/-- A call that builds a record leaves it in RTC memory, one that builds none
changes nothing. -/
theorem rtc_step (c : Copies) (a : Action) (ha : a.isLoss = false) :
    (step c a).rtc = (recorded a).or c.rtc := by
  cases a with
  | loseRtc => cases ha
  | cache p env =>
    simp only [step, recorded, copiesOf, Service.cacheCurrentPlaybackStatus, build_withCopies]
    cases p.buildResumeState env.cartridge <;> rfl
  | persist p env =>
    cases hbuild : p.buildResumeState env.cartridge with
    | none =>
      simp only [step, recorded, copiesOf, Service.persistCurrentPlaybackStatus, build_withCopies,
        hbuild]
      rfl
    | some status =>
      simp only [step, recorded, copiesOf, Service.persistCurrentPlaybackStatus, build_withCopies,
        hbuild]
      by_cases hopen : env.nvs.openWrite = .ok
      · by_cases hset : env.nvs.setBlob = .ok <;> simp [hopen, hset]
      · simp [hopen]

/-- Only a call that reaches the commit changes NVS, and it leaves its record. -/
theorem nvs_step (c : Copies) (a : Action) :
    (step c a).nvs = if reachesCommit a then (recorded a).map .record else c.nvs := by
  cases a with
  | loseRtc => rfl
  | cache p env =>
    simp only [step, copiesOf, reachesCommit, Service.cacheCurrentPlaybackStatus, build_withCopies]
    cases p.buildResumeState env.cartridge <;> rfl
  | persist p env =>
    cases hbuild : p.buildResumeState env.cartridge with
    | none =>
      simp only [step, recorded, copiesOf, reachesCommit, Service.persistCurrentPlaybackStatus,
        build_withCopies, hbuild]
      rfl
    | some status =>
      simp only [step, recorded, copiesOf, reachesCommit, Service.persistCurrentPlaybackStatus,
        build_withCopies, hbuild]
      by_cases hopen : env.nvs.openWrite = .ok
      · by_cases hset : env.nvs.setBlob = .ok <;> simp [hopen, hset, withCopies]
      · simp [hopen, withCopies]

/-- A persisting call that built a record and returned `ESP_OK` reached its commit. -/
theorem reachesCommit_of_ok (hrecord : (p.buildResumeState env.cartridge).isSome = true)
    (hok : (p.persistCurrentPlaybackStatus env).1 = .ok) :
    reachesCommit (.persist p env) = true := by
  unfold Service.persistCurrentPlaybackStatus at hok
  obtain ⟨status, hstatus⟩ := Option.isSome_iff_exists.mp hrecord
  rw [hstatus] at hok
  dsimp only at hok
  simp only [reachesCommit, hstatus, Option.isSome_some, Bool.true_and, Bool.and_eq_true, beq_iff_eq]
  split at hok
  · next hopen => exact absurd hok hopen
  · next hopen =>
    split at hok
    · next hset => exact absurd hok hset
    · next hset => exact ⟨not_not.mp hopen, not_not.mp hset⟩

/-! ## The history of a copy -/

/-- The last call that built a record while RTC memory was kept since. -/
def LastKept (as : List Action) (p : Service) (env : Env) : Prop :=
  ∃ pre a post, as = pre ++ a :: post ∧ (a = .cache p env ∨ a = .persist p env) ∧
    ∀ b ∈ post, b.isLoss = false ∧ recorded b = none

/-- The last persisting call that returned `ESP_OK`, with RTC memory lost and no
record built since; no call after it got as far as its commit and failed there. -/
def LastDurable (as : List Action) (p : Service) (env : Env) : Prop :=
  (p.persistCurrentPlaybackStatus env).1 = .ok ∧
    ∃ pre mid late, as = pre ++ .persist p env :: (mid ++ .loseRtc :: late) ∧
      (∀ b ∈ mid ++ late, reachesCommit b = false) ∧ ∀ b ∈ late, recorded b = none

theorem rtc_run_of_silent {as : List Action} (c : Copies)
    (h : ∀ b ∈ as, b.isLoss = false ∧ recorded b = none) : (run c as).rtc = c.rtc := by
  induction as generalizing c with
  | nil => rfl
  | cons a as ih =>
    obtain ⟨hloss, hnone⟩ := h a List.mem_cons_self
    have hrest := ih (step c a) fun b hb => h b (List.mem_cons_of_mem _ hb)
    rw [rtc_step c a hloss, hnone, Option.none_or] at hrest
    exact hrest

/-- What is lost stays lost until the next record. -/
theorem rtc_run_of_unrecorded {as : List Action} (c : Copies) (hlost : c.rtc = none)
    (h : ∀ b ∈ as, recorded b = none) : (run c as).rtc = none := by
  induction as generalizing c with
  | nil => exact hlost
  | cons a as ih =>
    refine ih (step c a) ?_ fun b hb => h b (List.mem_cons_of_mem _ hb)
    cases hloss : a.isLoss with
    | false => rw [rtc_step c a hloss, h a List.mem_cons_self, hlost, Option.none_or]
    | true =>
      cases a with
      | loseRtc => rfl
      | cache _ _ | persist _ _ => cases hloss

theorem nvs_run_of_unreached {as : List Action} (c : Copies)
    (h : ∀ b ∈ as, reachesCommit b = false) : (run c as).nvs = c.nvs := by
  induction as generalizing c with
  | nil => rfl
  | cons a as ih =>
    have hrest := ih (step c a) fun b hb => h b (List.mem_cons_of_mem _ hb)
    rw [nvs_step, h a List.mem_cons_self] at hrest
    exact hrest

theorem run_append (c : Copies) (as bs : List Action) :
    run c (as ++ bs) = run (run c as) bs := List.foldl_append

theorem rtc_of_lastKept {as : List Action} (c : Copies) (h : LastKept as p env)
    (hrecord : p.buildResumeState env.cartridge = some status) :
    (run c as).rtc = some status := by
  obtain ⟨pre, a, post, rfl, ha, hpost⟩ := h
  have hstatus : recorded a = some status ∧ a.isLoss = false := by
    rcases ha with rfl | rfl <;> exact ⟨hrecord, rfl⟩
  rw [run_append]
  refine (rtc_run_of_silent (step (run c pre) a) hpost).trans ?_
  rw [rtc_step _ a hstatus.2, hstatus.1, Option.some_or]

theorem copies_of_lastDurable {as : List Action} (c : Copies) (h : LastDurable as p env)
    (hrecord : p.buildResumeState env.cartridge = some status) :
    (run c as).rtc = none ∧ (run c as).nvs = some (.record status) := by
  obtain ⟨hok, pre, mid, late, rfl, hreach, hlate⟩ := h
  have hcommit := reachesCommit_of_ok (by rw [hrecord, Option.isSome_some]) hok
  have hsplit : run c (pre ++ .persist p env :: (mid ++ .loseRtc :: late)) =
      run (step (run (step (run c pre) (.persist p env)) mid) .loseRtc) late := by
    rw [run_append]
    change run (step _ _) (mid ++ .loseRtc :: late) = _
    rw [run_append]
    rfl
  rw [hsplit]
  refine ⟨rtc_run_of_unrecorded _ rfl hlate, ?_⟩
  rw [nvs_run_of_unreached _ fun b hb => hreach b (List.mem_append_right _ hb), nvs_step]
  change (run _ mid).nvs = _
  rw [nvs_run_of_unreached _ fun b hb => hreach b (List.mem_append_left _ hb), nvs_step, hcommit]
  simp only [if_true, recorded, hrecord, Option.map_some]

/-! ## What a load finds -/

/-- The load of a service that holds these copies. -/
def load (c : Copies) (q : Service) (env : Env) : Option (Nat × Nat × Bool) × Service :=
  (withCopies q c).loadSavedPlaybackStatus env

/-- A track of the mounted cartridge is playing or paused. -/
structure Playing (p : Service) (env : Env) : Prop where
  mounted : env.cartridge.isMounted = true
  active : p.playing = true ∨ p.paused = true
  current : Current env.cartridge p
  seconds : p.trackInfo.lookupTableLen ≤ 2 ^ 32

/-- The cartridge and the playlist of the load are those of the call. -/
structure SameCartridge (p : Service) (env : Env) (q : Service) (env' : Env) : Prop where
  mounted : env'.cartridge.isMounted = true
  header : ∃ header header', env.cartridge.getMetadataHeader = some header ∧
    env'.cartridge.getMetadataHeader = some header' ∧
      header'.checksum = header.checksum ∧ header'.trackCount = header.trackCount
  playlist : q.playlist.count = p.playlist.count

/-- The mounted cartridge of the load has another checksum. -/
structure OtherCartridge (env env' : Env) : Prop where
  mounted : env'.cartridge.isMounted = true
  header : ∃ header header', env.cartridge.getMetadataHeader = some header ∧
    env'.cartridge.getMetadataHeader = some header' ∧ header.checksum ≠ header'.checksum

theorem trackCount_of_header {cart : Cartridge} {header : JbmHeader}
    (h : cart.getMetadataHeader = some header) :
    cart.getMetadataTrackCount = header.trackCount.toNat := by
  unfold Cartridge.getMetadataHeader at h
  unfold Cartridge.getMetadataTrackCount
  cases hmeta : cart.metadata with
  | none => simp [hmeta] at h
  | some metadata =>
    rw [hmeta, Option.map_some, Option.some.injEq] at h
    rw [← h]

theorem currentSecond_lt (h : p.trackInfo.lookupTableLen ≤ 2 ^ 32) : p.currentSecond < 2 ^ 32 := by
  unfold Service.currentSecond Service.clampChunk
  split
  · omega
  · have := StateInvariant.clampChunkIndex_lt (Nat.pos_of_ne_zero ‹_›) p.positionChunk
    omega

/-- The record of a track that plays. -/
theorem Playing.record (h : Playing p env) : ∃ status header,
    p.buildResumeState env.cartridge = some status ∧
      env.cartridge.getMetadataHeader = some header ∧ status.version = resumeStateVersion ∧
        status.cartridgeChecksum = header.checksum ∧ status.trackCount = header.trackCount ∧
          status.currentTrackNum.toNat = p.playlistIndex ∧
            p.playlistIndex < header.trackCount.toNat ∧
              status.currentSec.toNat = p.currentSecond ∧ (status.paused != 0) = p.paused := by
  obtain ⟨file, -, hfile⟩ := h.current.loaded
  have hlt := h.current.index_lt
  unfold Service.playlistFilename at hfile
  rw [if_neg (Nat.not_le.mpr hlt)] at hfile
  obtain ⟨track, htrack, -⟩ := Option.bind_eq_some_iff.mp hfile
  have hcount := Cartridge.getMetadataTrack_isSome.mp (Option.isSome_of_eq_some htrack)
  have hheader : ∃ header, env.cartridge.getMetadataHeader = some header := by
    unfold Cartridge.getMetadataTrack at htrack
    unfold Cartridge.getMetadataHeader
    cases hmeta : env.cartridge.metadata with
    | none => simp [hmeta] at htrack
    | some metadata => exact ⟨_, rfl⟩
  obtain ⟨header, hheader⟩ := hheader
  rw [trackCount_of_header hheader] at hcount
  have hindex : p.playlistIndex < 2 ^ 32 := hcount.trans header.trackCount.toNat_lt
  refine ⟨
    { version := resumeStateVersion
      cartridgeChecksum := header.checksum
      trackCount := header.trackCount
      currentTrackNum := .ofNat p.playlistIndex
      currentSec := .ofNat p.currentSecond
      paused := if p.paused then 1 else 0 }, header, ?_, hheader, rfl, rfl, rfl,
    UInt32.toNat_ofNat_of_lt' hindex, hcount,
    UInt32.toNat_ofNat_of_lt' (currentSecond_lt h.seconds), ?_⟩
  · unfold Service.buildResumeState
    rw [hheader]
    dsimp only
    rw [if_neg]
    have hplays : (!p.playing && !p.paused) = false := by
      rcases h.active with hp | hp <;> simp [hp]
    simp [h.mounted, hplays, Nat.ne_of_gt (Nat.zero_lt_of_lt hlt)]
  · cases p.paused <;> rfl

theorem validate_same (h : Playing p env) (hsame : SameCartridge p env q env')
    (hrecord : p.buildResumeState env.cartridge = some status) (c : Copies) :
    (withCopies q c).validateResumeState env'.cartridge status =
      some (p.playlistIndex, p.currentSecond, p.paused) := by
  obtain ⟨status', header, hbuild, hheader, hversion, hchecksum, hcount, hindex, hlt, hsec, hpaused⟩ :=
    h.record
  obtain rfl := Option.some.inj (hbuild.symm.trans hrecord)
  obtain ⟨header₁, header', hheader₁, hheader', hchecksum', hcount'⟩ := hsame.header
  obtain rfl := Option.some.inj (hheader.symm.trans hheader₁)
  have hplaylist : p.playlistIndex < q.playlist.count := hsame.playlist ▸ h.current.index_lt
  unfold Service.validateResumeState
  rw [hheader']
  dsimp only
  rw [trackCount_of_header hheader', hindex, hsec, hpaused, if_neg]
  simp [hsame.mounted, hversion, hchecksum, hchecksum', hcount, hcount', hlt, withCopies, hplaylist]

theorem validate_other {header' : JbmHeader}
    (hheader : env'.cartridge.getMetadataHeader = some header')
    (hchecksum : status.cartridgeChecksum ≠ header'.checksum) :
    q.validateResumeState env'.cartridge status = none := by
  unfold Service.validateResumeState
  rw [hheader]
  dsimp only
  rw [if_pos]
  simp [hchecksum]

/-- What a load that goes by an acceptable copy yields. -/
theorem load_valid {c : Copies} {header' : JbmHeader} {found : Nat × Nat × Bool}
    (hmounted : env'.cartridge.isMounted = true)
    (hheader : env'.cartridge.getMetadataHeader = some header')
    (hversion : status.version = resumeStateVersion)
    (hchecksum : status.cartridgeChecksum = header'.checksum)
    (hvalid : (withCopies q c).validateResumeState env'.cartridge status = some found)
    (hcopy : c.rtc = some status ∨ (c.rtc = none ∧ c.nvs = some (.record status) ∧
      env'.nvs.openWrite = .ok ∧ env'.nvs.getBlob = .ok)) :
    (load c q env').1 = some found := by
  unfold load Service.loadSavedPlaybackStatus
  rw [hheader]
  dsimp only
  rw [hmounted, Bool.not_true, if_neg Bool.false_ne_true]
  rcases hcopy with hrtc | ⟨hrtc, hnvs, hopen, hget⟩
  · have hcopy : (withCopies q c).resumeRtc = some status := hrtc
    rw [hcopy]
    dsimp only
    rw [hvalid]
  · have hcopy : (withCopies q c).resumeRtc = none := hrtc
    have hblob : (withCopies q c).getResumeBlob env' = .ok (.record status) := by
      unfold Service.getResumeBlob
      have hstored : (withCopies q c).resumeNvs = some (.record status) := hnvs
      rw [if_neg (not_not.mpr hget), hstored]
    rw [hcopy]
    dsimp only
    unfold Service.loadSavedNvs
    rw [if_neg (not_not.mpr hopen), hblob]
    dsimp only
    rw [if_neg (not_not.mpr hversion), if_neg (not_not.mpr hchecksum), hvalid]

/-- What a load that goes by a copy of another cartridge leaves. -/
theorem load_other {c : Copies} {header' : JbmHeader}
    (hmounted : env'.cartridge.isMounted = true)
    (hheader : env'.cartridge.getMetadataHeader = some header')
    (hversion : status.version = resumeStateVersion)
    (hchecksum : status.cartridgeChecksum ≠ header'.checksum)
    (hcopy : c.rtc = some status ∨ (c.rtc = none ∧ c.nvs = some (.record status))) :
    (load c q env').1 = none ∧ (load c q env').2.resumeRtc = none ∧
      (env'.nvs.openWrite = .ok → env'.nvs.eraseKey = .ok →
        (c.rtc = none → env'.nvs.getBlob ≠ .nvsNotFound) →
          (load c q env').2.resumeNvs = none) := by
  unfold load Service.loadSavedPlaybackStatus
  rw [hheader]
  dsimp only
  rw [hmounted, Bool.not_true, if_neg Bool.false_ne_true]
  rcases hcopy with hrtc | ⟨hrtc, hnvs⟩
  · have hcopy : (withCopies q c).resumeRtc = some status := hrtc
    rw [hcopy]
    dsimp only
    rw [validate_other hheader hchecksum]
    dsimp only
    rw [if_pos ⟨hversion, hchecksum⟩]
    unfold Service.clearSavedPlaybackStatus Service.discardSaved
    refine ⟨rfl, ?_, fun hopen herase _ => ?_⟩
    · split <;> rfl
    · simp [hopen, herase]
  · have hcopy : (withCopies q c).resumeRtc = none := hrtc
    rw [hcopy]
    dsimp only
    unfold Service.loadSavedNvs
    split
    · next hopen => exact ⟨rfl, hrtc, fun hok => absurd hok hopen⟩
    · unfold Service.getResumeBlob
      by_cases hget : env'.nvs.getBlob = .ok
      · have hblob : (withCopies q c).resumeNvs = some (.record status) := hnvs
        rw [if_neg (not_not.mpr hget), hblob]
        dsimp only
        rw [if_neg (not_not.mpr hversion), if_pos hchecksum]
        exact ⟨rfl, rfl, fun _ herase _ => if_pos herase⟩
      · rw [if_pos hget]
        split
        · next hmissing =>
          refine ⟨rfl, hrtc, fun _ _ hfound => ?_⟩
          exact absurd (Except.error.inj hmissing) (hfound hrtc)
        · exact ⟨rfl, rfl, fun _ herase _ => if_pos herase⟩
        · exact ⟨rfl, rfl, fun _ herase _ => if_pos herase⟩
        · next hblob => cases hblob

/-- Two empty copies: nothing is found. -/
theorem load_empty {c : Copies} (hrtc : c.rtc = none) (hnvs : c.nvs = none) (q : Service)
    (env : Env) : (load c q env).1 = none := by
  have hcopy : (withCopies q c).resumeRtc = none := hrtc
  have hblob : (withCopies q c).resumeNvs = none := hnvs
  unfold load Service.loadSavedPlaybackStatus
  split
  · rfl
  · split
    · rfl
    · rw [hcopy]
      dsimp only
      unfold Service.loadSavedNvs Service.getResumeBlob
      rw [hblob]
      split
      · rfl
      · split
        · rfl
        · rfl
        · rfl
        · next heq =>
          split at heq <;> cases heq

theorem load_lt {c : Copies} {index chunk : Nat} {paused : Bool}
    (h : (load c q env').1 = some (index, chunk, paused)) :
    index < env'.cartridge.getMetadataTrackCount ∧ index < q.playlist.count := by
  have hvalid {status : ResumeState} {p : Service}
      (h : p.validateResumeState env'.cartridge status = some (index, chunk, paused)) :
      index < env'.cartridge.getMetadataTrackCount ∧ index < p.playlist.count := by
    refine ⟨?_, Service.validateResumeState_lt h⟩
    unfold Service.validateResumeState at h
    split at h
    · cases h
    · split at h
      · cases h
      · next hbad =>
        cases h
        simp only [Bool.or_eq_true, decide_eq_true_eq, not_or, Nat.not_le] at hbad
        exact hbad.1.2
  have hnvs {header : JbmHeader} {p : Service}
      (h : (p.loadSavedNvs env' header).1 = some (index, chunk, paused)) :
      index < env'.cartridge.getMetadataTrackCount ∧ index < p.playlist.count := by
    unfold Service.loadSavedNvs at h
    split at h
    · cases h
    · split at h
      · cases h
      · cases h
      · cases h
      · split at h
        · cases h
        · split at h
          · cases h
          · split at h
            · cases h
            · next found hfound =>
              obtain rfl := Option.some.inj h
              exact hvalid hfound
  unfold load Service.loadSavedPlaybackStatus at h
  split at h
  · cases h
  · split at h
    · cases h
    · split at h
      · exact @hnvs _ (withCopies q c) h
      · split at h
        · next found hfound =>
          obtain rfl := Option.some.inj h
          exact hvalid hfound
        · split at h
          · cases h
          · exact @hnvs _ { withCopies q c with resumeRtc := none } h

/-! ## The record -/

/-- **The resume record round trip.** After any run of caching and persisting
calls, a load of the same cartridge yields the last recorded state while RTC
memory was kept, and the last one persisted with `ESP_OK` when it was lost, as
long as NVS can be read and no later call failed in its commit. A load of another
cartridge yields nothing and clears both copies, and no load yields an index
outside the metadata or the playlist. -/
theorem resume_record (c : Copies) (as : List Action) (q : Service) (env' : Env) :
    (∀ p env, LastKept as p env → Playing p env → SameCartridge p env q env' →
      (load (run c as) q env').1 = some (p.playlistIndex, p.currentSecond, p.paused)) ∧
    (∀ p env, LastDurable as p env → Playing p env → SameCartridge p env q env' →
      env'.nvs.openWrite = .ok → env'.nvs.getBlob = .ok →
        (load (run c as) q env').1 = some (p.playlistIndex, p.currentSecond, p.paused)) ∧
    (∀ p env, LastKept as p env ∨ LastDurable as p env → Playing p env → OtherCartridge env env' →
      (load (run c as) q env').1 = none ∧ (load (run c as) q env').2.resumeRtc = none ∧
        (env'.nvs.openWrite = .ok → env'.nvs.eraseKey = .ok →
          ((run c as).rtc = none → env'.nvs.getBlob ≠ .nvsNotFound) →
            (load (run c as) q env').2.resumeNvs = none ∧
              ∀ q₂ env₂, (load (copiesOf (load (run c as) q env').2) q₂ env₂).1 = none)) ∧
    ∀ index chunk paused, (load c q env').1 = some (index, chunk, paused) →
      index < env'.cartridge.getMetadataTrackCount ∧ index < q.playlist.count := by
  refine ⟨fun p env hlast hplaying hsame => ?_, fun p env hlast hplaying hsame hopen hget => ?_,
    fun p env hlast hplaying hother => ?_, fun index chunk paused h => load_lt h⟩
  · obtain ⟨status, header, hbuild, hheader, hversion, hchecksum, -⟩ := hplaying.record
    obtain ⟨header₁, header', hheader₁, hheader', hsum, -⟩ := hsame.header
    obtain rfl := Option.some.inj (hheader.symm.trans hheader₁)
    exact load_valid hsame.mounted hheader' hversion (hchecksum.trans hsum.symm)
      (validate_same hplaying hsame hbuild _) (.inl (rtc_of_lastKept c hlast hbuild))
  · obtain ⟨status, header, hbuild, hheader, hversion, hchecksum, -⟩ := hplaying.record
    obtain ⟨header₁, header', hheader₁, hheader', hsum, -⟩ := hsame.header
    obtain rfl := Option.some.inj (hheader.symm.trans hheader₁)
    obtain ⟨hrtc, hnvs⟩ := copies_of_lastDurable c hlast hbuild
    exact load_valid hsame.mounted hheader' hversion (hchecksum.trans hsum.symm)
      (validate_same hplaying hsame hbuild _) (.inr ⟨hrtc, hnvs, hopen, hget⟩)
  · obtain ⟨status, header, hbuild, hheader, hversion, hchecksum, -⟩ := hplaying.record
    obtain ⟨header₁, header', hheader₁, hheader', hsum⟩ := hother.header
    obtain rfl := Option.some.inj (hheader.symm.trans hheader₁)
    have hcopy : (run c as).rtc = some status ∨
        ((run c as).rtc = none ∧ (run c as).nvs = some (.record status)) :=
      hlast.imp (fun h => rtc_of_lastKept c h hbuild) (fun h => copies_of_lastDurable c h hbuild)
    have hne : status.cartridgeChecksum ≠ header'.checksum := hchecksum ▸ hsum
    obtain ⟨hnone, hrtc, herased⟩ := @load_other q env' status _ header' hother.mounted hheader'
      hversion hne hcopy
    refine ⟨hnone, hrtc, fun hopen herase hfound => ?_⟩
    have hnvs := herased hopen herase hfound
    exact ⟨hnvs, load_empty hrtc hnvs⟩

/-! ## What a lost RTC memory can cost -/

/-- The first track of three plays. -/
def firstTrack : Service := (Service.turn calmEnv .cartridgeInserted (.init none none)).service

/-- The same track a second later. -/
def secondLater : Service := { firstTrack with currentChunk := 1 }

/-- NVS cannot be opened, or its commit fails. -/
def closedEnv : Env := { calmEnv with nvs := { openWrite := .fail } }

def uncommittedEnv : Env := { calmEnv with nvs := { commit := .fail } }

theorem playing_firstTrack : Playing firstTrack calmEnv where
  mounted := rfl
  active := .inl (by decide +kernel)
  current := ⟨by decide +kernel, ⟨0, by decide +kernel, by decide +kernel⟩, by decide +kernel⟩
  seconds := by decide +kernel

theorem same_firstTrack (env' : Env) (h : env'.cartridge = calmEnv.cartridge) :
    SameCartridge firstTrack calmEnv firstTrack env' where
  mounted := h ▸ rfl
  header := ⟨threeTracks.header, threeTracks.header, rfl, h ▸ rfl, rfl, rfl⟩
  playlist := rfl

/-- The shortest history of a persisted and of a cached record. -/
theorem lastDurable_persist (hok : (p.persistCurrentPlaybackStatus env).1 = .ok) :
    LastDurable [.persist p env, .loseRtc] p env :=
  ⟨hok, [], [], [], rfl, by simp [reachesCommit], by simp⟩

theorem lastKept_cache (p : Service) (env : Env) : LastKept [.cache p env] p env :=
  ⟨[], _, [], rfl, .inl rfl, by simp⟩

theorem resume_record_firstTrack :
    (load (run ⟨none, none⟩ [.persist firstTrack calmEnv, .loseRtc]) firstTrack calmEnv).1 =
        some (0, 0, false) ∧
      (load (run ⟨none, none⟩ [.cache firstTrack calmEnv]) firstTrack calmEnv).1 =
        some (0, 0, false) := by
  have hfound : (firstTrack.playlistIndex, firstTrack.currentSecond, firstTrack.paused) =
      (0, 0, false) := by
    decide +kernel
  have hdurable : LastDurable [.persist firstTrack calmEnv, .loseRtc] firstTrack calmEnv :=
    lastDurable_persist (by decide +kernel)
  rw [← hfound]
  exact ⟨(resume_record _ _ _ _).2.1 _ _ hdurable playing_firstTrack (same_firstTrack _ rfl) rfl rfl,
    (resume_record _ _ _ _).1 _ _ (lastKept_cache _ _) playing_firstTrack (same_firstTrack _ rfl)⟩

/-- The last persisting call that returned `ESP_OK`, with RTC memory lost since. -/
def LastPersisted (as : List Action) (p : Service) (env : Env) : Prop :=
  (p.persistCurrentPlaybackStatus env).1 = .ok ∧
    ∃ pre mid late, as = pre ++ .persist p env :: (mid ++ .loseRtc :: late) ∧
      (∀ p' env', .persist p' env' ∈ mid ++ late → (p'.persistCurrentPlaybackStatus env').1 ≠ .ok) ∧
        ∀ b ∈ late, recorded b = none

theorem lastPersisted_pair {p' : Service} (hok : (p.persistCurrentPlaybackStatus env).1 = .ok)
    (hfails : (p'.persistCurrentPlaybackStatus env').1 ≠ .ok) :
    LastPersisted [.persist p env, .persist p' env', .loseRtc] p env := by
  refine ⟨hok, [], [.persist p' env'], [], rfl, fun r e hm => ?_, by simp⟩
  cases List.mem_singleton.mp hm
  exact hfails

/-- **The persisted state is not always what a load finds**: NVS may not be
readable then, and a later call that failed in its commit has replaced it. -/
theorem persisted_state_lost :
    (¬ ∀ (c : Copies) (as : List Action) (p q : Service) (env env' : Env),
      LastPersisted as p env → Playing p env → SameCartridge p env q env' →
        (load (run c as) q env').1 = some (p.playlistIndex, p.currentSecond, p.paused)) ∧
    ¬ ∀ (c : Copies) (as : List Action) (p q : Service) (env env' : Env),
      LastPersisted as p env → Playing p env → SameCartridge p env q env' →
        env'.nvs.openWrite = .ok → env'.nvs.getBlob = .ok →
          (load (run c as) q env').1 = some (p.playlistIndex, p.currentSecond, p.paused) := by
  constructor
  · intro h
    have hlast : LastPersisted
        [.persist firstTrack calmEnv, .persist secondLater uncommittedEnv, .loseRtc]
        firstTrack calmEnv :=
      lastPersisted_pair (by decide +kernel) (by decide +kernel)
    have hload := h ⟨none, none⟩ _ _ firstTrack _ closedEnv hlast playing_firstTrack
      (same_firstTrack _ rfl)
    have hnone : (load (run ⟨none, none⟩ [.persist firstTrack calmEnv,
        .persist secondLater uncommittedEnv, .loseRtc]) firstTrack closedEnv).1 = none := by
      decide +kernel
    cases hnone.symm.trans hload
  · intro h
    have hlast : LastPersisted
        [.persist firstTrack calmEnv, .persist secondLater uncommittedEnv, .loseRtc]
        firstTrack calmEnv :=
      lastPersisted_pair (by decide +kernel) (by decide +kernel)
    have hload := h ⟨none, none⟩ _ _ firstTrack _ calmEnv hlast playing_firstTrack
      (same_firstTrack _ rfl) rfl rfl
    have hfound : ((load (run ⟨none, none⟩ [.persist firstTrack calmEnv,
        .persist secondLater uncommittedEnv, .loseRtc]) firstTrack calmEnv).1,
          firstTrack.currentSecond) = (some (0, 1, false), 0) := by
      decide +kernel
    obtain ⟨hone, hzero⟩ := Prod.mk.inj hfound
    rw [hone, hzero] at hload
    obtain ⟨-, hrest⟩ := Prod.mk.inj (Option.some.inj hload)
    exact absurd (Prod.mk.inj hrest).1 (by decide)

end Jukeboy.Player.ResumeRecord
