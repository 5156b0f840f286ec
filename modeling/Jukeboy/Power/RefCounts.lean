import Mathlib.Data.List.Count
import Jukeboy.Power.HidLed

/-! # Reference counts

A request counts up and a release counts down before the rail is applied, and neither is
taken back when the rail then cannot be applied or its event cannot be posted. The counts
balance, and the HID service's flag mirrors its reference, exactly in the runs where this
does not happen and no count wraps around. -/
namespace Jukeboy.Power.RefCounts

open Jukeboy.Base Jukeboy.Base.Runs Jukeboy.Power.Rails
open Jukeboy.Power.HidLed (Led)

/-! ## What the counts are to be -/

/-- The calls of an operation that returned `ESP_OK`. -/
def succeeded (op : Op) (s : Rails.State) : Nat :=
  s.returned.countP fun c => c.op == op && c.err == .ok

/-- The calls of an operation that are in their event post. -/
def inFlight (op : Op) (s : Rails.State) : Nat := s.calls.countP fun c => c.op == op

/-- A count is the number of requests less the number of releases, those that returned
`ESP_OK` and those that are still under way. -/
def Balanced (s : Rails.State) : Prop :=
  ∀ rail, (s.service.rails rail).refcount +
      (succeeded (.release rail) s + inFlight (.release rail) s) =
    succeeded (.request rail) s + inFlight (.request rail) s

/-- A call that returned an error has left the count and the override as they were. -/
def ErrorsClean (s : Rails.State) : Prop :=
  ∀ c ∈ s.returned, c.err ≠ .ok → c.changed = false

/-- The calls of an operation by which the HID service has changed a count. -/
def hidChanges (op : Op) (s : Rails.State) : Nat :=
  s.returned.countP fun c => c.client == .hid && c.op == op && c.changed

/-- The HID service holds one reference on the LED rail when its flag says so, and none
otherwise. -/
def Mirrored (s : HidLed.State) : Prop :=
  hidChanges (.request .led) s.power =
    hidChanges (.release .led) s.power + if s.led.railRequested then 1 else 0

structure Kept (s : HidLed.State) : Prop where
  balanced : Balanced s.power
  errorsClean : ErrorsClean s.power
  mirrored : Mirrored s

/-! ## The condition -/

/-- The count and the override. -/
def counts (r : RailState) : Nat × Override := (r.refcount, r.override)

/-- A request finds the count below its limit, and where an operation changes a rail that
has to be switched then, every call that switches it succeeds. -/
def Applies (s : Service) (op : Op) (answers : Answers) : Prop :=
  let r := s.rails op.rail
  (op = .request op.rail → r.refcount + 1 < sizeLimit) ∧
    (counts (op.change r) ≠ counts r → effectiveEnabled (op.change r) ≠ r.enabled →
      ∀ c ∈ switchCalls s op.rail (effectiveEnabled (op.change r)), answers c = .ok)

/-- The call on a rail that an action begins with. -/
def railCallOf (s : HidLed.State) : HidLed.Action → Option (Op × Answers)
  | .ledSetRgb red green blue clear answers =>
    if s.busy then none
    else ({ s.led with red := red, green := green, blue := blue }.railCall clear).map (·, answers)
  | .ledSetBrightness percent clear answers =>
    if s.busy ∨ ¬ percent ≤ 100 then none
    else ({ s.led with brightness := percent }.railCall clear).map (·, answers)
  | .ledOff clear answers =>
    if s.busy then none
    else ({ s.led with red := 0, green := 0, blue := 0 }.railCall clear).map (·, answers)
  | .call _ op answers => some (op, answers)
  | .post .. => none
  | .bind .. => none

/-- Every rail is applied that has to be, and the event of every call that has changed a
count or an override is posted. -/
def Undisturbed (s : HidLed.State) (a : HidLed.Action) : Prop :=
  (∀ op answers, railCallOf s a = some (op, answers) → Applies s.power.service op answers) ∧
    (∀ index err c, a = .post index err → s.power.calls[index]? = some c → err ≠ .ok →
      c.changed = false)

/-! ## One call -/

/-- How `applyLocked` ends. -/
def failed : Applied → Bool
  | .returned err => err != .ok
  | .posting _ => false

theorem applyLocked_counts (s : Service) (rail : Rail) (answers : Answers) (other : Rail) :
    counts ((applyLocked s rail answers).1.rails other) = counts (s.rails other) := by
  unfold applyLocked
  dsimp only
  split
  · rfl
  · split
    · rfl
    · by_cases h : other = rail
      · subst h
        simp [Service.setEnabled, counts]
      · simp [Service.setEnabled, h]

theorem applyLocked_failed {s : Service} {rail : Rail} {answers : Answers} :
    failed (applyLocked s rail answers).2 = true ↔
      effectiveEnabled (s.rails rail) ≠ (s.rails rail).enabled ∧
        ¬ ∀ c ∈ switchCalls s rail (effectiveEnabled (s.rails rail)), answers c = .ok := by
  rw [← firstError_eq_ok]
  unfold applyLocked
  dsimp only
  split
  · next h => simp [failed, h]
  · next h =>
    split
    · next herr => simp [failed, h, herr]
    · next herr => simp [failed, h, not_not.mp herr]

/-- Every call, failed or not, makes its change and no other. -/
theorem callLocked_counts (s : Service) (answers : Answers) (op : Op) (rail : Rail) :
    counts ((callLocked s answers op).1.rails rail) =
      if rail = op.rail then counts (op.change (s.rails op.rail)) else counts (s.rails rail) := by
  rw [callLocked_eq]
  split
  · next h =>
    obtain ⟨hop, hzero⟩ := h
    split
    · next hrail => rw [hrail, hop, Op.change, counts, counts, ← hop, hzero]
    · rfl
  · rw [applyLocked_counts]
    split
    · next hrail => rw [hrail, Service.set_same]
    · next hrail => rw [Service.set_other s hrail]

theorem changedBy_iff (s : Service) (answers : Answers) (op : Op) :
    changedBy op s (callLocked s answers op).1 = true ↔
      counts (op.change (s.rails op.rail)) ≠ counts (s.rails op.rail) := by
  have h := callLocked_counts s answers op op.rail
  rw [if_pos rfl] at h
  rw [← h]
  simp only [changedBy, counts, Bool.or_eq_true, bne_iff_ne, ne_eq, Prod.mk.injEq, not_and_or]
  exact or_congr (not_congr eq_comm) (not_congr eq_comm)

theorem callLocked_failed {s : Service} {answers : Answers} {op : Op} :
    failed (callLocked s answers op).2 = true ↔
      (op = .release op.rail ∧ (s.rails op.rail).refcount = 0) ∨
        effectiveEnabled (op.change (s.rails op.rail)) ≠ (s.rails op.rail).enabled ∧
        ¬ ∀ c ∈ switchCalls s op.rail (effectiveEnabled (op.change (s.rails op.rail))),
          answers c = .ok := by
  have henabled : (op.change (s.rails op.rail)).enabled = (s.rails op.rail).enabled := by
    cases op <;> rfl
  rw [callLocked_eq]
  split
  · next h => exact iff_of_true rfl (.inl h)
  · next h => rw [applyLocked_failed, Service.set_same, switchCalls_set, henabled, or_iff_right h]

/-- A release that finds nothing to release changes nothing. -/
theorem change_underflow {op : Op} {r : RailState} (hop : op = .release op.rail)
    (hzero : r.refcount = 0) : op.change r = r := by
  rw [hop, Op.change, hzero]
  cases r
  simp_all

/-- A call that may not fail fails only where it changes nothing. -/
theorem applies_iff_of_failed {s : Service} {answers : Answers} {op : Op}
    (h : failed (callLocked s answers op).2 = true) :
    Applies s op answers ↔ changedBy op s (callLocked s answers op).1 = false := by
  rw [← Bool.not_eq_true, changedBy_iff, not_not]
  obtain ⟨hop, hzero⟩ | ⟨hswitch, hfail⟩ := callLocked_failed.mp h
  · rw [change_underflow hop hzero]
    refine iff_of_true ⟨?_, ?_⟩ rfl
    · intro hrequest
      rw [hop] at hrequest
      cases hrequest
    · intro hne
      rw [change_underflow hop hzero] at hne
      exact absurd rfl hne
  · constructor
    · rintro ⟨-, hsucceed⟩
      by_contra hne
      exact hfail (hsucceed hne hswitch)
    · intro hsame
      refine ⟨?_, fun hne => absurd hsame hne⟩
      intro hrequest
      rw [hrequest] at hsame
      simp only [Op.change, counts, Prod.mk.injEq, sizeLimit] at hsame
      have := hsame.1
      omega

theorem applies_iff_of_not_failed {s : Service} {answers : Answers} {op : Op}
    (h : failed (callLocked s answers op).2 ≠ true) :
    Applies s op answers ↔
      (op = .request op.rail → (s.rails op.rail).refcount + 1 < sizeLimit) := by
  rw [ne_eq, callLocked_failed, not_or] at h
  refine ⟨And.left, fun hlimit => ⟨hlimit, fun _ hswitch => ?_⟩⟩
  by_contra hfail
  exact h.2 ⟨hswitch, hfail⟩

/-! ## Calls of the rails -/

/-- The calls of an operation that count. -/
def made (op : Op) (s : Rails.State) : Nat := succeeded op s + inFlight op s

theorem call_service (s : Rails.State) (client : Client) (op : Op) (answers : Answers) :
    (call s client op answers).1.service = (callLocked s.service answers op).1 := by
  rcases hcall : callLocked s.service answers op with ⟨service, err | enabled⟩
  · rw [call_of_returned hcall]
  · rw [call_of_posting hcall]

theorem made_call (s : Rails.State) (client : Client) (op : Op) (answers : Answers) (o : Op) :
    made o (call s client op answers).1 =
      made o s + if op = o ∧ failed (callLocked s.service answers op).2 = false then 1 else 0 := by
  rcases hcall : callLocked s.service answers op with ⟨service, err | enabled⟩
  · rw [call_of_returned hcall]
    simp only [made, succeeded, inFlight, List.countP_append, List.countP_singleton, failed,
      Bool.and_eq_true, beq_iff_eq, bne_eq_false_iff_eq]
    omega
  · rw [call_of_posting hcall]
    simp only [made, succeeded, inFlight, List.countP_append, List.countP_singleton, failed,
      beq_iff_eq, and_true]
    omega

theorem errorsClean_call (s : Rails.State) (client : Client) (op : Op) (answers : Answers) :
    ErrorsClean (call s client op answers).1 ↔
      ErrorsClean s ∧ (failed (callLocked s.service answers op).2 = true →
        changedBy op s.service (callLocked s.service answers op).1 = false) := by
  rcases hcall : callLocked s.service answers op with ⟨service, err | enabled⟩
  · rw [call_of_returned hcall]
    simp [ErrorsClean, failed, or_imp, forall_and]
  · rw [call_of_posting hcall]
    simp [ErrorsClean, failed]

/-- A call that does not fail keeps the balance, unless the count wraps around. -/
theorem balanced_call_iff {s : Rails.State} (h : Balanced s) (client : Client) {op : Op}
    {answers : Answers} (hfailed : failed (callLocked s.service answers op).2 = false) :
    Balanced (call s client op answers).1 ↔
      (op = .request op.rail → (s.service.rails op.rail).refcount + 1 < sizeLimit) := by
  have hcount : ∀ rail, ((call s client op answers).1.service.rails rail).refcount =
      if rail = op.rail then (op.change (s.service.rails op.rail)).refcount
      else (s.service.rails rail).refcount := by
    intro rail
    have hc := callLocked_counts s.service answers op rail
    rw [call_service]
    split
    · next heq => exact congrArg Prod.fst (hc.trans (if_pos heq))
    · next hne => exact congrArg Prod.fst (hc.trans (if_neg hne))
  have hmade := fun o => made_call s client op answers o
  simp only [hfailed, and_true] at hmade
  constructor
  · intro ht hop
    have h := h op.rail
    have ht := ht op.rail
    have hreq := hmade (.request op.rail)
    have hrel := hmade (.release op.rail)
    rw [hcount, if_pos rfl] at ht
    rw [if_pos hop] at hreq
    rw [if_neg (by rw [hop]; simp)] at hrel
    have hchange : (op.change (s.service.rails op.rail)).refcount =
        ((s.service.rails op.rail).refcount + 1) % sizeLimit := by
      rw [hop]
      rfl
    simp only [made] at hreq hrel
    have hmod := Nat.mod_lt ((s.service.rails op.rail).refcount + 1) (show 0 < sizeLimit by decide)
    omega
  · intro hlimit rail
    have h := h rail
    have hreq := hmade (.request rail)
    have hrel := hmade (.release rail)
    simp only [made] at hreq hrel
    rw [hcount]
    split
    · next hrail =>
      subst hrail
      cases op with
      | request rail =>
        have hlimit := hlimit rfl
        simp only [Op.change, Op.rail, if_true, reduceCtorEq, if_false] at hreq hrel h hlimit ⊢
        rw [Nat.mod_eq_of_lt hlimit]
        omega
      | release rail =>
        have hrefs : (s.service.rails rail).refcount ≠ 0 := by
          intro hzero
          rw [callLocked_failed.mpr (.inl ⟨rfl, hzero⟩)] at hfailed
          cases hfailed
        simp only [Op.change, Op.rail, if_true, reduceCtorEq, if_false] at hreq hrel h ⊢
        omega
      | setOverride rail mode =>
        simp only [Op.change, Op.rail, reduceCtorEq, if_false] at hreq hrel h ⊢
        omega
    · next hrail =>
      have hne : op ≠ .request rail ∧ op ≠ .release rail := by
        constructor
        · rintro rfl
          exact hrail rfl
        · rintro rfl
          exact hrail rfl
      rw [if_neg hne.1] at hreq
      rw [if_neg hne.2] at hrel
      omega

/-- A call that fails and has changed nothing keeps the balance. -/
theorem balanced_call_of_unchanged {s : Rails.State} (h : Balanced s) {client : Client} {op : Op}
    {answers : Answers} (hfailed : failed (callLocked s.service answers op).2 = true)
    (hsame : changedBy op s.service (callLocked s.service answers op).1 = false) :
    Balanced (call s client op answers).1 := by
  intro rail
  have h := h rail
  have hreq := made_call s client op answers (.request rail)
  have hrel := made_call s client op answers (.release rail)
  simp only [hfailed, Bool.true_eq_false, and_false, if_false, made] at hreq hrel
  rw [← Bool.not_eq_true, changedBy_iff, not_not] at hsame
  have hcount := callLocked_counts s.service answers op rail
  have hsame : counts ((callLocked s.service answers op).1.rails rail) =
      counts (s.service.rails rail) := by
    rw [hcount]
    split
    · next hrail => rw [hrail, hsame]
    · rfl
  have hcount : ((call s client op answers).1.service.rails rail).refcount =
      (s.service.rails rail).refcount := by
    rw [call_service]
    exact congrArg Prod.fst hsame
  omega

theorem call_kept_iff {s : Rails.State} (hb : Balanced s) (he : ErrorsClean s) (client : Client)
    (op : Op) (answers : Answers) :
    Balanced (call s client op answers).1 ∧ ErrorsClean (call s client op answers).1 ↔
      Applies s.service op answers := by
  rw [errorsClean_call, and_iff_right he]
  by_cases hfailed : failed (callLocked s.service answers op).2 = true
  · rw [applies_iff_of_failed hfailed]
    exact ⟨fun ht => ht.2 hfailed, fun hsame =>
      ⟨balanced_call_of_unchanged hb hfailed hsame, fun _ => hsame⟩⟩
  · rw [applies_iff_of_not_failed hfailed,
      ← balanced_call_iff hb client (by simpa using hfailed)]
    exact ⟨And.left, fun ht => ⟨ht, fun h => absurd h hfailed⟩⟩

/-! ## Returns of the rails -/

/-- A request or a release that is under way has changed its count. -/
def FlightChanged (s : Rails.State) : Prop :=
  ∀ c ∈ s.calls, c.changed = true ∨ ∃ rail mode, c.op = .setOverride rail mode

theorem made_post {s : Rails.State} {index : Nat} {c : Call} (hc : s.calls[index]? = some c)
    (err : EspErr) (o : Op) :
    made o (post s index c err) + (if c.op = o ∧ err ≠ .ok then 1 else 0) = made o s := by
  have hsplit := calls_around hc
  simp only [made, succeeded, inFlight, post, List.eraseIdx_eq_take_drop_succ, List.countP_append,
    List.countP_singleton, Bool.and_eq_true, beq_iff_eq]
  conv_rhs => rw [hsplit, List.countP_append, List.countP_cons]
  simp only [beq_iff_eq]
  by_cases hop : c.op = o
  · by_cases herr : err = .ok
    · simp only [hop, herr, ne_eq, not_true_eq_false, and_false, and_self, if_true, if_false]
      omega
    · simp only [hop, herr, ne_eq, not_false_eq_true, and_false, and_self, if_true, if_false]
      omega
  · simp only [hop, false_and, if_false]
    omega

theorem post_kept_iff {s : Rails.State} (hb : Balanced s) (he : ErrorsClean s)
    (hf : FlightChanged s) {index : Nat} {c : Call} (hc : s.calls[index]? = some c)
    (err : EspErr) :
    Balanced (post s index c err) ∧ ErrorsClean (post s index c err) ↔
      (err ≠ .ok → c.changed = false) := by
  have hclean : ErrorsClean (post s index c err) ↔ (err ≠ .ok → c.changed = false) := by
    simp only [ErrorsClean, post, List.mem_append, List.mem_singleton, or_imp, forall_and,
      forall_eq]
    exact and_iff_right he
  rw [hclean, and_iff_right_iff_imp]
  intro hsame rail
  have h := hb rail
  have hreq := made_post hc err (.request rail)
  have hrel := made_post hc err (.release rail)
  -- a call that returns an error has changed nothing, so it is neither
  have hneither : err ≠ .ok → c.op ≠ .request rail ∧ c.op ≠ .release rail := by
    intro herr
    obtain hchanged | ⟨other, mode, hop⟩ := hf c (List.mem_of_getElem? hc)
    · rw [hsame herr] at hchanged
      cases hchanged
    · rw [hop]
      simp
  rw [if_neg (fun h => (hneither h.2).1 h.1), made] at hreq
  rw [if_neg (fun h => (hneither h.2).2 h.1), made] at hrel
  simp only [made] at hreq hrel
  change (s.service.rails rail).refcount + _ = _
  omega

/-! ## The HID service's calls -/

/-- The calls of the HID service that are under way. -/
def own (s : Rails.State) : List Call := s.calls.filter fun c => c.client == .hid

/-- The call on the LED rail that turns the flag over. -/
def nextOp (led : Led) : Op := if led.railRequested then .release .led else .request .led

/-- What links the calls under way to what they are part of. -/
structure Linked (s : HidLed.State) : Prop where
  flight : FlightChanged s.power
  /-- The lock of the HID service lets one call through, and it is the next one. -/
  next : own s.power = [] ∨ ∃ c, own s.power = [c] ∧ c.op = nextOp s.led

theorem own_eq_nil {s : HidLed.State} : own s.power = [] ↔ s.busy = false := by
  simp [own, HidLed.State.busy, List.filter_eq_nil_iff]

theorem railCall_next {led : Led} {clear : EspErr} {op : Op}
    (h : led.railCall clear = some op) : op = nextOp led := by
  unfold HidLed.Led.railCall at h
  unfold nextOp
  split at h
  · next hrequest =>
    cases h
    simp only [Bool.and_eq_true, Bool.not_eq_true'] at hrequest
    rw [hrequest.2]
    rfl
  · split at h
    · cases h
    · split at h
      · cases h
      · split at h
        · next hrequested =>
          cases h
          rw [if_pos hrequested]
        · cases h

theorem changed_of_not_failed (s : Service) (answers : Answers) (op : Op)
    (h : failed (callLocked s answers op).2 = false) :
    changedBy op s (callLocked s answers op).1 = true ∨
      ∃ rail mode, op = .setOverride rail mode := by
  cases op with
  | request rail =>
    left
    rw [changedBy_iff]
    intro hsame
    simp only [Op.change, counts, Prod.mk.injEq, sizeLimit] at hsame
    have := hsame.1
    omega
  | release rail =>
    left
    rw [changedBy_iff]
    intro hsame
    have hrefs : (s.rails rail).refcount ≠ 0 := by
      intro hzero
      rw [callLocked_failed.mpr (.inl ⟨rfl, hzero⟩)] at h
      cases h
    simp only [Op.change, counts, Op.rail, Prod.mk.injEq] at hsame
    have := hsame.1
    omega
  | setOverride rail mode => exact .inr ⟨rail, mode, rfl⟩

theorem flightChanged_call {s : Rails.State} (h : FlightChanged s) (client : Client) (op : Op)
    (answers : Answers) : FlightChanged (call s client op answers).1 := by
  rcases hcall : callLocked s.service answers op with ⟨service, err | enabled⟩
  · rw [call_of_returned hcall]
    exact h
  · rw [call_of_posting hcall]
    intro c hc
    obtain hc | hc := List.mem_append.mp hc
    · exact h c hc
    · rw [List.mem_singleton.mp hc]
      have hchanged := changed_of_not_failed s.service answers op (by rw [hcall]; rfl)
      rwa [hcall] at hchanged

/-- A call of the HID service returns, having changed its count if it succeeds and not if it
fails: the flag goes with the count. -/
theorem mirrored_returned {s : HidLed.State} (h : Mirrored s) {power : Rails.State}
    {err : EspErr} {changed : Bool}
    (hreturned : power.returned = s.power.returned ++ [⟨.hid, nextOp s.led, err, changed⟩])
    (hok : err = .ok → changed = true) (herr : err ≠ .ok → changed = false) :
    Mirrored ⟨power, s.led.resume (nextOp s.led) err⟩ := by
  have hcount : ∀ o, hidChanges o power =
      hidChanges o s.power + if nextOp s.led = o ∧ changed = true then 1 else 0 := by
    intro o
    simp [hidChanges, hreturned, List.countP_append, List.countP_singleton]
  unfold Mirrored at h ⊢
  rw [hcount, hcount]
  by_cases hsucceed : err = .ok
  · rw [hok hsucceed, HidLed.Led.resume, if_neg (not_not.mpr hsucceed)]
    cases hrequested : s.led.railRequested with
    | true =>
      rw [hrequested] at h
      simp only [nextOp, hrequested, if_true] at h ⊢
      simp only [reduceCtorEq, and_true, if_true, if_false, decide_false, Bool.false_eq_true]
      exact h
    | false =>
      rw [hrequested] at h
      simp only [nextOp, hrequested, Bool.false_eq_true, if_false] at h ⊢
      simp only [reduceCtorEq, and_true, if_true, if_false, decide_true]
      omega
  · rw [herr hsucceed, HidLed.Led.resume, if_pos hsucceed]
    simpa using h

/-- A call of another client is none of the HID service's. -/
theorem mirrored_other {s : HidLed.State} (h : Mirrored s) {power : Rails.State}
    (hreturned : power.returned = s.power.returned ∨
      ∃ c, power.returned = s.power.returned ++ [c] ∧ c.client ≠ .hid) :
    Mirrored { s with power := power } := by
  have hcount : ∀ o, hidChanges o power = hidChanges o s.power := by
    intro o
    obtain hreturned | ⟨c, hreturned, hclient⟩ := hreturned
    · rw [hidChanges, hreturned, hidChanges]
    · simp [hidChanges, hreturned, List.countP_append, hclient]
  unfold Mirrored at h ⊢
  rw [hcount, hcount]
  exact h

theorem Kept.recolour {s : HidLed.State} (h : Kept s) {led : Led}
    (hled : led.railRequested = s.led.railRequested) : Kept { s with led := led } where
  balanced := h.balanced
  errorsClean := h.errorsClean
  mirrored := by
    have := h.mirrored
    unfold Mirrored at this ⊢
    rwa [hled]

theorem Linked.recolour {s : HidLed.State} (h : Linked s) {led : Led}
    (hled : led.railRequested = s.led.railRequested) : Linked { s with led := led } where
  flight := h.flight
  next := by
    have := h.next
    unfold nextOp at this ⊢
    rwa [hled]

theorem applyLedLocked_of_returned {s : HidLed.State} {clear : EspErr} {answers : Answers}
    {op : Op} {service : Service} {err : EspErr} (hop : s.led.railCall clear = some op)
    (hcall : callLocked s.power.service answers op = (service, .returned err)) :
    HidLed.applyLedLocked s clear answers =
      ⟨(call s.power .hid op answers).1, s.led.resume op err⟩ := by
  rw [HidLed.applyLedLocked, hop]
  dsimp only
  rw [call_of_returned hcall]

theorem applyLedLocked_of_posting {s : HidLed.State} {clear : EspErr} {answers : Answers}
    {op : Op} {service : Service} {enabled : Bool} (hop : s.led.railCall clear = some op)
    (hcall : callLocked s.power.service answers op = (service, .posting enabled)) :
    HidLed.applyLedLocked s clear answers = ⟨(call s.power .hid op answers).1, s.led⟩ := by
  rw [HidLed.applyLedLocked, hop]
  dsimp only
  rw [call_of_posting hcall]

/-- A call of the HID service, up to its event. -/
theorem applyLedLocked_linked {s : HidLed.State} (h : Linked s) (hbusy : s.busy = false)
    (clear : EspErr) (answers : Answers) : Linked (HidLed.applyLedLocked s clear answers) := by
  have hown := own_eq_nil.mpr hbusy
  cases hop : s.led.railCall clear with
  | none => rwa [HidLed.applyLedLocked, hop]
  | some op =>
    have hflight := flightChanged_call h.flight .hid op answers
    rcases hcall : callLocked s.power.service answers op with ⟨service, err | enabled⟩
    · rw [applyLedLocked_of_returned hop hcall]
      refine ⟨hflight, .inl ?_⟩
      rw [call_of_returned hcall]
      exact hown
    · rw [applyLedLocked_of_posting hop hcall]
      refine ⟨hflight, .inr
        ⟨⟨.hid, op, enabled, changedBy op s.power.service service⟩, ?_, railCall_next hop⟩⟩
      rw [call_of_posting hcall, own, List.filter_append, ← own, hown]
      rfl

/-- A call of the HID service keeps the counts and the flag exactly when the rail can be
applied. -/
theorem applyLedLocked_kept_iff {s : HidLed.State} (h : Kept s) (clear : EspErr)
    (answers : Answers) :
    Kept (HidLed.applyLedLocked s clear answers) ↔
      ∀ op, s.led.railCall clear = some op → Applies s.power.service op answers := by
  cases hop : s.led.railCall clear with
  | none =>
    rw [HidLed.applyLedLocked, hop]
    exact iff_of_true h (fun op hop => by cases hop)
  | some op =>
    simp only [Option.some.injEq, forall_eq']
    rw [← call_kept_iff h.balanced h.errorsClean .hid op answers]
    have hnext := railCall_next hop
    rcases hcall : callLocked s.power.service answers op with ⟨service, err | enabled⟩
    · rw [applyLedLocked_of_returned hop hcall]
      refine ⟨fun ht => ⟨ht.balanced, ht.errorsClean⟩, fun ht => ⟨ht.1, ht.2, ?_⟩⟩
      have hchanged := (errorsClean_call s.power .hid op answers).mp ht.2
      rw [call_of_returned hcall]
      subst hnext
      refine mirrored_returned h.mirrored rfl ?_ ?_
      · intro herr
        have hok := changed_of_not_failed s.power.service answers (nextOp s.led)
          (by rw [hcall, failed, herr]; rfl)
        rw [hcall] at hok
        obtain hok | ⟨rail, mode, hmode⟩ := hok
        · exact hok
        · unfold nextOp at hmode
          split at hmode
          · cases hmode
          · cases hmode
      · intro herr
        rw [hcall] at hchanged
        exact hchanged.2 (by simpa [failed] using herr)
    · rw [applyLedLocked_of_posting hop hcall]
      refine ⟨fun ht => ⟨ht.balanced, ht.errorsClean⟩, fun ht => ⟨ht.1, ht.2, ?_⟩⟩
      rw [call_of_posting hcall]
      exact mirrored_other h.mirrored (.inl rfl)

/-! ## The other clients' calls, and the returns -/

theorem call_other_linked {s : HidLed.State} (h : Linked s) (task : Nat) (op : Op)
    (answers : Answers) :
    Linked { s with power := (call s.power (.other task) op answers).1 } := by
  refine ⟨flightChanged_call h.flight _ op answers, ?_⟩
  have hown : own (call s.power (.other task) op answers).1 = own s.power := by
    rcases hcall : callLocked s.power.service answers op with ⟨service, err | enabled⟩
    · rw [call_of_returned hcall]
      rfl
    · rw [call_of_posting hcall, own, List.filter_append, ← own]
      exact List.append_nil _
  rw [hown]
  exact h.next

theorem call_other_kept_iff {s : HidLed.State} (h : Kept s) (task : Nat) (op : Op)
    (answers : Answers) :
    Kept { s with power := (call s.power (.other task) op answers).1 } ↔
      Applies s.power.service op answers := by
  rw [← call_kept_iff h.balanced h.errorsClean (.other task) op answers]
  refine ⟨fun ht => ⟨ht.balanced, ht.errorsClean⟩, fun ht => ⟨ht.1, ht.2, ?_⟩⟩
  refine mirrored_other h.mirrored ?_
  rcases hcall : callLocked s.power.service answers op with ⟨service, err | enabled⟩
  · rw [call_of_returned hcall]
    exact .inr ⟨_, rfl, by simp⟩
  · rw [call_of_posting hcall]
    exact .inl rfl

/-- The calls under way, but for one. -/
theorem own_post {s : Rails.State} {index : Nat} {c : Call} (hc : s.calls[index]? = some c)
    (err : EspErr) : ∃ before after, own s = before ++ own { s with calls := [c] } ++ after ∧
      own (post s index c err) = before ++ after := by
  have hsplit : s.calls = s.calls.take index ++ [c] ++ s.calls.drop (index + 1) := by
    rw [List.append_assoc, List.singleton_append]
    exact calls_around hc
  refine ⟨(s.calls.take index).filter fun c => c.client == .hid,
    (s.calls.drop (index + 1)).filter fun c => c.client == .hid, ?_, ?_⟩
  · conv_lhs => rw [own, hsplit, List.filter_append, List.filter_append]
    rfl
  · rw [own, post, List.eraseIdx_eq_take_drop_succ, List.filter_append]

theorem post_linked {s : HidLed.State} (h : Linked s) {index : Nat} {c : Call}
    (hc : s.power.calls[index]? = some c) (err : EspErr) :
    Linked ⟨post s.power index c err,
      if c.client = .hid then s.led.resume c.op err else s.led⟩ := by
  refine ⟨fun d hd => h.flight d (List.mem_of_mem_eraseIdx hd), ?_⟩
  obtain ⟨before, after, hown, hrest⟩ := own_post hc err
  rw [hrest]
  by_cases hclient : c.client = .hid
  · -- the one call of the HID service
    left
    have hone : own { s.power with calls := [c] } = [c] := by simp [own, hclient]
    rw [hone] at hown
    obtain hnil | ⟨d, hd, -⟩ := h.next
    · simp [hnil] at hown
    · rw [hd] at hown
      cases before with
      | nil => simp_all
      | cons => simp at hown
  · have hnone : own { s.power with calls := [c] } = [] := by simp [own, hclient]
    rw [hnone, List.append_nil] at hown
    rw [← hown, if_neg hclient]
    exact h.next

theorem post_kept {s : HidLed.State} (h : Kept s) (hl : Linked s) {index : Nat} {c : Call}
    (hc : s.power.calls[index]? = some c) (err : EspErr) :
    Kept ⟨post s.power index c err, if c.client = .hid then s.led.resume c.op err else s.led⟩ ↔
      (err ≠ .ok → c.changed = false) := by
  have hpower := post_kept_iff h.balanced h.errorsClean hl.flight hc err
  refine ⟨fun ht => hpower.mp ⟨ht.balanced, ht.errorsClean⟩, fun hsame => ?_⟩
  obtain ⟨hbalanced, hclean⟩ := hpower.mpr hsame
  refine ⟨hbalanced, hclean, ?_⟩
  by_cases hclient : c.client = .hid
  · have hmem : c ∈ own s.power :=
      List.mem_filter.mpr ⟨List.mem_of_getElem? hc, by simp [hclient]⟩
    have hnext : c.op = nextOp s.led := by
      obtain hnil | ⟨d, hd, hop⟩ := hl.next
      · rw [hnil] at hmem
        cases hmem
      · rw [hd] at hmem
        rwa [List.mem_singleton.mp hmem]
    rw [if_pos hclient, hnext]
    refine mirrored_returned h.mirrored ?_ ?_ hsame
    · rw [post, hclient, hnext]
    · intro _
      obtain hchanged | ⟨rail, mode, hop⟩ := hl.flight c (List.mem_of_getElem? hc)
      · exact hchanged
      · rw [hnext, nextOp] at hop
        split at hop
        · cases hop
        · cases hop
  · rw [if_neg hclient]
    exact mirrored_other h.mirrored (.inr ⟨_, rfl, hclient⟩)

/-! ## Runs -/

theorem bind_linked {s : HidLed.State} (h : Linked s) (service : Service) :
    Linked { s with power := { s.power with service := service } } :=
  ⟨h.flight, h.next⟩

theorem bind_kept {s : HidLed.State} (h : Kept s) (channel : Nat) (prepareOff : Bool) :
    Kept { s with power := { s.power with
      service := bindDacI2sChannel s.power.service channel prepareOff } } := by
  refine ⟨?_, h.errorsClean, h.mirrored⟩
  have hrails : (bindDacI2sChannel s.power.service channel prepareOff).rails =
      s.power.service.rails := by
    unfold bindDacI2sChannel
    split
    · rfl
    · rfl
  intro rail
  have := h.balanced rail
  rwa [← hrails] at this

/-- The LED operations are calls of `hid_service_apply_led_locked` with other colours. -/
inductive LedStep (s : HidLed.State) (a : HidLed.Action) (t : HidLed.State) : Prop where
  | apply (led : Led) (clear : EspErr) (answers : Answers) (hbusy : s.busy = false)
      (hled : led.railRequested = s.led.railRequested)
      (hcall : railCallOf s a = (led.railCall clear).map (·, answers))
      (ht : t = HidLed.applyLedLocked { s with led := led } clear answers)
  | rejected (hcall : railCallOf s a = none) (ht : t = s)

theorem ledStep_setRgb {s t : HidLed.State} {red green blue : UInt8} {clear : EspErr}
    {answers : Answers} (ht : HidLed.step s (.ledSetRgb red green blue clear answers) = some t) :
    LedStep s (.ledSetRgb red green blue clear answers) t := by
  simp only [HidLed.step, Option.ite_none_left_eq_some, Option.some.injEq, Bool.not_eq_true] at ht
  obtain ⟨hbusy, rfl⟩ := ht
  refine .apply { s.led with red := red, green := green, blue := blue } clear answers hbusy rfl ?_
    rfl
  rw [railCallOf, if_neg (by rw [hbusy]; simp)]

theorem ledStep_ledOff {s t : HidLed.State} {clear : EspErr} {answers : Answers}
    (ht : HidLed.step s (.ledOff clear answers) = some t) :
    LedStep s (.ledOff clear answers) t := by
  simp only [HidLed.step, Option.ite_none_left_eq_some, Option.some.injEq, Bool.not_eq_true] at ht
  obtain ⟨hbusy, rfl⟩ := ht
  refine .apply { s.led with red := 0, green := 0, blue := 0 } clear answers hbusy rfl ?_ rfl
  rw [railCallOf, if_neg (by rw [hbusy]; simp)]

theorem ledStep_setBrightness {s t : HidLed.State} {percent : UInt8} {clear : EspErr}
    {answers : Answers} (ht : HidLed.step s (.ledSetBrightness percent clear answers) = some t) :
    LedStep s (.ledSetBrightness percent clear answers) t := by
  simp only [HidLed.step, Option.ite_none_left_eq_some, Option.some.injEq, Bool.not_eq_true] at ht
  obtain ⟨hbusy, rfl⟩ := ht
  unfold HidLed.ledSetBrightness
  split
  · next hpercent =>
    exact .rejected (by rw [railCallOf, if_pos (.inr hpercent)]) rfl
  · next hpercent =>
    refine .apply { s.led with brightness := percent } clear answers hbusy rfl ?_ rfl
    rw [railCallOf, if_neg (by rw [hbusy]; simpa using hpercent)]

theorem LedStep.linked {s t : HidLed.State} {a : HidLed.Action} (h : LedStep s a t)
    (hl : Linked s) : Linked t := by
  cases h with
  | apply led clear answers hbusy hled hcall ht =>
    subst ht
    exact applyLedLocked_linked (hl.recolour hled) hbusy clear answers
  | rejected _ ht => exact ht ▸ hl

theorem LedStep.kept_iff {s t : HidLed.State} {a : HidLed.Action} (h : LedStep s a t)
    (hk : Kept s) : Kept t ↔
      ∀ op answers, railCallOf s a = some (op, answers) → Applies s.power.service op answers := by
  cases h with
  | apply led clear answers hbusy hled hcall ht =>
    subst ht
    rw [applyLedLocked_kept_iff (hk.recolour hled), hcall]
    constructor
    · intro h op answers' heq
      obtain ⟨op', hop, heq⟩ := Option.map_eq_some_iff.mp heq
      cases heq
      exact h op hop
    · intro h op hop
      exact h op answers (by rw [hop]; rfl)
  | rejected hcall ht =>
    subst ht
    rw [hcall]
    exact iff_of_true hk (fun op answers h => by cases h)

theorem linked_step {s t : HidLed.State} {a : HidLed.Action} (hl : Linked s)
    (ht : HidLed.step s a = some t) : Linked t := by
  cases a with
  | ledSetRgb red green blue clear answers => exact (ledStep_setRgb ht).linked hl
  | ledSetBrightness percent clear answers => exact (ledStep_setBrightness ht).linked hl
  | ledOff clear answers => exact (ledStep_ledOff ht).linked hl
  | call task op answers =>
    cases ht
    exact call_other_linked hl task op answers
  | post index err =>
    obtain ⟨c, hc, rfl⟩ := Option.map_eq_some_iff.mp ht
    exact post_linked hl hc err
  | bind channel prepareOff =>
    cases ht
    exact bind_linked hl _

/-- One step keeps the counts and the flag exactly when it is undisturbed. -/
theorem kept_step_iff {s t : HidLed.State} {a : HidLed.Action} (hk : Kept s) (hl : Linked s)
    (ht : HidLed.step s a = some t) : Kept t ↔ Undisturbed s a := by
  have hnot : (∀ index err, a ≠ .post index err) → (Undisturbed s a ↔
      ∀ op answers, railCallOf s a = some (op, answers) →
        Applies s.power.service op answers) := by
    intro hne
    exact and_iff_left fun index err c heq => absurd heq (hne index err)
  cases a with
  | ledSetRgb red green blue clear answers =>
    rw [hnot (by simp)]
    exact (ledStep_setRgb ht).kept_iff hk
  | ledSetBrightness percent clear answers =>
    rw [hnot (by simp)]
    exact (ledStep_setBrightness ht).kept_iff hk
  | ledOff clear answers =>
    rw [hnot (by simp)]
    exact (ledStep_ledOff ht).kept_iff hk
  | call task op answers =>
    cases ht
    rw [hnot (by simp), call_other_kept_iff hk task op answers]
    simp [railCallOf]
  | post index err =>
    obtain ⟨c, hc, rfl⟩ := Option.map_eq_some_iff.mp ht
    rw [post_kept hk hl hc err]
    constructor
    · intro hsame
      refine ⟨fun op answers h => (by cases h), ?_⟩
      intro index' err' c' heq hc'
      cases heq
      rw [hc] at hc'
      cases hc'
      exact hsame
    · rintro ⟨-, hsame⟩
      exact hsame index err c rfl hc
  | bind channel prepareOff =>
    cases ht
    rw [hnot (by simp)]
    exact iff_of_true (bind_kept hk channel prepareOff) (fun op answers h => by cases h)

theorem undisturbed_of_none {s : HidLed.State} {a : HidLed.Action}
    (h : HidLed.step s a = none) : Undisturbed s a := by
  cases a with
  | ledSetRgb red green blue clear answers =>
    simp only [HidLed.step, ite_eq_left_iff, reduceCtorEq, imp_false, not_not] at h
    simp [Undisturbed, railCallOf, h]
  | ledSetBrightness percent clear answers =>
    simp only [HidLed.step, ite_eq_left_iff, reduceCtorEq, imp_false, not_not] at h
    simp [Undisturbed, railCallOf, h]
  | ledOff clear answers =>
    simp only [HidLed.step, ite_eq_left_iff, reduceCtorEq, imp_false, not_not] at h
    simp [Undisturbed, railCallOf, h]
  | call task op answers => cases h
  | post index err =>
    have hnone : s.power.calls[index]? = none := Option.map_eq_none_iff.mp h
    refine ⟨fun op answers h => (by cases h), ?_⟩
    intro index' err' c heq hc
    cases heq
    rw [hnone] at hc
    cases hc
  | bind channel prepareOff => cases h

theorem kept_initial : Kept HidLed.initial where
  balanced _ := rfl
  errorsClean c hc := by cases hc
  mirrored := rfl

theorem linked_initial : Linked HidLed.initial := ⟨fun c hc => (by cases hc), .inl rfl⟩

/-- **Reference counts balance**, errors are clean and the HID service's flag mirrors its
reference throughout a run exactly when every step of the run is undisturbed. -/
theorem counts_kept_iff (as : List HidLed.Action) :
    (∀ pre t, pre <+: as → run HidLed.step HidLed.initial pre = some t → Kept t) ↔
      Along HidLed.step Undisturbed HidLed.initial as := by
  have hlinked : ∀ pre t, run HidLed.step HidLed.initial pre = some t → Linked t :=
    fun pre t ht => run_invariant (C := fun _ _ => True)
      (fun s a t hl _ ht => linked_step hl ht) linked_initial (along_true pre) ht
  have hexact : (∀ pre t, pre <+: as → run HidLed.step HidLed.initial pre = some t →
      Kept t ∧ Linked t) ↔ (Kept HidLed.initial ∧ Linked HidLed.initial) ∧
        Along HidLed.step Undisturbed HidLed.initial as :=
    always_iff (fun s a t hs ht =>
      (and_iff_left (linked_step hs.2 ht)).trans (kept_step_iff hs.1 hs.2 ht))
      (fun s a => undisturbed_of_none)
  rw [and_iff_right ⟨kept_initial, linked_initial⟩] at hexact
  rw [← hexact]
  constructor
  · intro h pre t hpre ht
    exact ⟨h pre t hpre ht, hlinked pre t ht⟩
  · intro h pre t hpre ht
    exact (h pre t hpre ht).1

/-- The LED rail is on, and its event cannot be posted: the count stays up, and the HID
service, which takes the rail for not requested, requests it once more. -/
def unpostedRequest : List HidLed.Action :=
  [.ledSetRgb 255 0 0 .ok fun _ => .ok, .post 0 .timeout, .ledSetRgb 255 0 0 .ok fun _ => .ok]

theorem unposted_request_not_kept :
    ∃ t, run HidLed.step HidLed.initial unpostedRequest = some t ∧
      ¬ Balanced t.power ∧ ¬ ErrorsClean t.power ∧ ¬ Mirrored t := by
  refine ⟨_, rfl, ?_, ?_, ?_⟩
  · intro h
    exact absurd (h .led) (by decide)
  · intro h
    exact absurd (h ⟨.hid, .request .led, .timeout, true⟩ (by decide) (by decide)) (by decide)
  · unfold Mirrored
    decide

end Jukeboy.Power.RefCounts
