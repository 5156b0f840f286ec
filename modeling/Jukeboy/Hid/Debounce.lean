import Jukeboy.Base.Runs
import Jukeboy.Hid.Ulp

/-! # Debouncing

The counter of a ladder counts the samples in a row that show something else than the
stable value, whatever they show. It changes the stable value as a debouncer should as
long as they all show the same. -/
namespace Jukeboy.Hid.Debounce
open Jukeboy.Base.Runs Jukeboy.Hid.Ulp

/-! ## Streaks -/

section

variable {α : Type} {p : α → Bool} {log : List α} {t : Nat}

/-- How many of the newest entries in a row meet `p`. -/
def streak (p : α → Bool) (log : List α) : Nat := (log.takeWhile p).length

/-- The newest `t` entries all meet `p`. -/
def Lasts (p : α → Bool) (t : Nat) (log : List α) : Prop :=
  t ≤ log.length ∧ ∀ a ∈ log.take t, p a

instance : Decidable (Lasts p t log) := inferInstanceAs (Decidable (_ ∧ _))

@[simp] theorem streak_nil (p : α → Bool) : streak p [] = 0 := rfl

theorem streak_cons_pos {a : α} (h : p a = true) (log : List α) :
    streak p (a :: log) = streak p log + 1 := by
  rw [streak, List.takeWhile_cons_of_pos h]
  rfl

theorem streak_cons_neg {a : α} (h : p a = false) (log : List α) : streak p (a :: log) = 0 := by
  rw [streak, List.takeWhile_cons_of_neg (by rw [h]; exact Bool.false_ne_true)]
  rfl

theorem lasts_cons_succ {a : α} :
    Lasts p (t + 1) (a :: log) ↔ p a = true ∧ Lasts p t log := by
  unfold Lasts
  rw [List.take_succ_cons, List.forall_mem_cons, List.length_cons, Nat.succ_le_succ_iff]
  exact and_left_comm

theorem lasts_iff : Lasts p t log ↔ t ≤ streak p log := by
  induction log generalizing t with
  | nil =>
    rw [streak_nil]
    exact ⟨And.left, fun h => ⟨h, by simp⟩⟩
  | cons a log ih =>
    cases t with
    | zero => exact iff_of_true ⟨Nat.zero_le _, by simp⟩ (Nat.zero_le _)
    | succ t =>
      rw [lasts_cons_succ]
      cases ha : p a with
      | false => simp [streak_cons_neg ha]
      | true => simp [streak_cons_pos ha, ih]

theorem Lasts.imp {q : α → Bool} (h : Lasts p t log) (hpq : ∀ a, p a = true → q a = true) :
    Lasts q t log := ⟨h.1, fun a ha => hpq a (h.2 a ha)⟩

end

/-! ## What a debouncer does -/

/-- The newest `t` samples all decoded to `v`. -/
def Shows (t : Nat) (v : UInt16) (log : List (Option UInt16)) : Prop := Lasts (· = some v) t log

/-- The newest sample changes the stable value to `v` when, and only when, it is the last
of `t` in a row that decoded to `v`. -/
structure Debounced (t : Nat) (log : List (Option UInt16)) (before after : UInt16) : Prop where
  only : after ≠ before → Shows t after log
  always : ∀ v, Shows t v log → after = v

/-- The newest `t` samples show something else than the stable value, but not all the same. -/
def Mixed (t : Nat) (log : List (Option UInt16)) (stable : UInt16) : Prop :=
  Lasts (Ladder.moves stable) t log ∧ ∃ a ∈ log.take t, ∃ b ∈ log.take t, a ≠ b

instance (t : Nat) (log : List (Option UInt16)) (stable : UInt16) :
    Decidable (Mixed t log stable) := inferInstanceAs (Decidable (_ ∧ _))

/-! ## One ladder -/

/-- The counter counts the samples in a row that show something else than the stable value. -/
structure Counts (t : UInt16) (log : List (Option UInt16)) (l : Ladder) : Prop where
  streak : l.counter.toNat = streak (Ladder.moves l.stable) log
  low : l.counter < t

variable {t : UInt16} {log : List (Option UInt16)} {l : Ladder}

theorem counts_boot (ht : 1 ≤ t) : Counts t [] ⟨0, 0, 0⟩ :=
  ⟨rfl, UInt16.lt_iff_toNat_lt.mpr (UInt16.le_iff_toNat_le.mp ht)⟩

theorem moves_some {stable value : UInt16} :
    Ladder.moves stable (some value) = true ↔ value ≠ stable := by simp [Ladder.moves]

theorem moves_self (value : UInt16) : Ladder.moves value (some value) = false := by
  simp [Ladder.moves]

theorem Counts.succ_toNat (h : Counts t log l) : (l.counter + 1).toNat = l.counter.toNat + 1 := by
  have hlow := UInt16.lt_iff_toNat_lt.mp h.low
  have ht := t.toNat_lt
  rw [UInt16.toNat_add, UInt16.toNat_one, Nat.mod_eq_of_lt (by omega)]

theorem Counts.process (h : Counts t log l) (ht : 1 ≤ t) (raw r2 : UInt16) :
    Counts t (decode raw :: log) (l.process t raw r2).1 := by
  obtain ⟨hstay, hp⟩ | ⟨value, hdecode, hne, ⟨-, hp⟩ | ⟨hcount, hp⟩⟩ :=
    Ladder.process_cases l t raw r2
  · rw [hp]
    exact ⟨(streak_cons_neg hstay log).symm, UInt16.lt_iff_toNat_lt.mpr (UInt16.le_iff_toNat_le.mp ht)⟩
  · rw [hp, hdecode]
    exact ⟨(streak_cons_neg (moves_self value) log).symm,
      UInt16.lt_iff_toNat_lt.mpr (UInt16.le_iff_toNat_le.mp ht)⟩
  · have hmove : Ladder.moves l.stable (decode raw) = true := by
      rw [hdecode]
      exact moves_some.mpr hne
    have hsucc := h.succ_toNat
    rw [hp]
    constructor
    · rw [streak_cons_pos hmove, ← h.streak, ← hsucc]
    · have hlow := UInt16.lt_iff_toNat_lt.mp h.low
      have hne' : (l.counter + 1).toNat ≠ t.toNat := fun heq => hcount (UInt16.toNat_inj.mp heq)
      exact UInt16.lt_iff_toNat_lt.mpr (by dsimp only; omega)

/-- The stable value of a ladder is changed as a debouncer should exactly when the counted
samples are not mixed. -/
theorem Counts.confirmed_iff (h : Counts t log l) (ht : 1 ≤ t) (raw r2 : UInt16) :
    Debounced t.toNat (decode raw :: log) l.stable (l.process t raw r2).1.stable ↔
      ¬ Mixed t.toNat (decode raw :: log) l.stable := by
  obtain ⟨n, hn⟩ : ∃ n, t.toNat = n + 1 :=
    Nat.exists_eq_succ_of_ne_zero (Nat.ne_of_gt (UInt16.le_iff_toNat_le.mp ht))
  have hlow := UInt16.lt_iff_toNat_lt.mp h.low
  have hsucc := h.succ_toNat
  have hshows (v : UInt16) : Shows t.toNat v (decode raw :: log) → decode raw = some v := by
    intro hv
    rw [Shows, hn, lasts_cons_succ] at hv
    exact of_decide_eq_true hv.1
  rw [hn] at hshows ⊢
  obtain ⟨hstay, hp⟩ | ⟨value, hdecode, hne, ⟨hcount, hp⟩ | ⟨hcount, hp⟩⟩ :=
    Ladder.process_cases l t raw r2
  · refine iff_of_true ?_ fun hmixed => ?_
    · rw [hp]
      refine ⟨fun hchange => absurd rfl hchange, fun v hv => ?_⟩
      rw [hshows v hv] at hstay
      exact (of_decide_eq_false hstay |> not_not.mp).symm
    · rw [(lasts_cons_succ.mp hmixed.1).1] at hstay
      cases hstay
  · -- The sample that makes the change: all counted samples show another value.
    have hmoves : Lasts (Ladder.moves l.stable) (n + 1) (decode raw :: log) := by
      refine lasts_cons_succ.mpr ⟨by rw [hdecode]; exact moves_some.mpr hne, lasts_iff.mpr ?_⟩
      rw [← h.streak]
      rw [← UInt16.toNat_inj, hsucc, hn] at hcount
      omega
    have hvalue {v : UInt16} (hv : Shows (n + 1) v (decode raw :: log)) : value = v :=
      Option.some.inj (hdecode.symm.trans (hshows v hv))
    rw [hp]
    constructor
    · rintro hd ⟨-, a, ha, b, hb, hab⟩
      have hall := (hd.only hne).2
      exact hab ((of_decide_eq_true (hall a ha)).trans (of_decide_eq_true (hall b hb)).symm)
    · intro hmixed
      refine ⟨fun _ => ⟨hmoves.1, fun a ha => ?_⟩, fun v hv => hvalue hv⟩
      by_contra hother
      exact hmixed ⟨hmoves, a, ha, some value, by rw [hdecode]; exact List.mem_cons_self ..,
        fun heq => hother (decide_eq_true heq)⟩
  · -- There are too few counted samples, for a change and for a mixed row of them.
    have hfew : ¬ Lasts (Ladder.moves l.stable) (n + 1) (decode raw :: log) := by
      intro hlasts
      have hle := lasts_iff.mp (lasts_cons_succ.mp hlasts).2
      have hne' : (l.counter + 1).toNat ≠ t.toNat := fun heq => hcount (UInt16.toNat_inj.mp heq)
      rw [← h.streak] at hle
      omega
    refine iff_of_true ?_ fun hmixed => hfew hmixed.1
    rw [hp]
    refine ⟨fun hchange => absurd rfl hchange, fun v hv => ?_⟩
    have hv' : value = v := Option.some.inj (hdecode.symm.trans (hshows v hv))
    refine absurd (hv.imp fun d hd => ?_) hfew
    rw [of_decide_eq_true hd, moves_some, ← hv']
    exact hne

/-! ## The program -/

/-- The words of the program and all samples so far, the newest first. -/
structure Trace where
  bss : Bss
  samples : List Sample

def start (threshold : UInt16) : Trace := ⟨boot threshold, []⟩

def step (x : Trace) (s : Sample) : Option Trace := some ⟨(program x.bss s).1, s :: x.samples⟩

def mainLog (samples : List Sample) : List (Option UInt16) := samples.map fun s => decode s.main

def miscLog (samples : List Sample) : List (Option UInt16) := samples.map fun s => decode s.misc

/-- Both ladders are debounced, and the generation counts the sample when one changed. -/
structure SampleOk (t : UInt16) (x : Trace) (s : Sample) : Prop where
  main : Debounced t.toNat (mainLog (s :: x.samples)) x.bss.main.stable (program x.bss s).1.main.stable
  misc : Debounced t.toNat (miscLog (s :: x.samples)) x.bss.misc.stable (program x.bss s).1.misc.stable
  generation : (program x.bss s).1.buttonGeneration =
    if (program x.bss s).1.main.stable = x.bss.main.stable ∧
        (program x.bss s).1.misc.stable = x.bss.misc.stable
      then x.bss.buttonGeneration else x.bss.buttonGeneration + 1

/-- The sample does not complete a mixed row on either ladder. -/
def Unmixed (t : UInt16) (x : Trace) (s : Sample) : Prop :=
  ¬ Mixed t.toNat (mainLog (s :: x.samples)) x.bss.main.stable ∧
    ¬ Mixed t.toNat (miscLog (s :: x.samples)) x.bss.misc.stable

instance (t : UInt16) (x : Trace) (s : Sample) : Decidable (Unmixed t x s) :=
  inferInstanceAs (Decidable (¬ _ ∧ ¬ _))

theorem updateState_ladders (m : Bss) (r2 : UInt16) :
    (updateState m r2).1.main = m.main ∧ (updateState m r2).1.misc = m.misc ∧
      (updateState m r2).1.debounceThreshold = m.debounceThreshold := by
  unfold updateState
  dsimp only
  split <;> exact ⟨rfl, rfl, rfl⟩

theorem program_main (m : Bss) (s : Sample) :
    (program m s).1.main = (m.main.process m.debounceThreshold s.main 0).1 :=
  (updateState_ladders ..).1

theorem program_misc (m : Bss) (s : Sample) :
    (program m s).1.misc = (m.misc.process m.debounceThreshold s.misc 0).1 :=
  (updateState_ladders ..).2.1.trans (Ladder.process_fst ..)

theorem program_threshold (m : Bss) (s : Sample) :
    (program m s).1.debounceThreshold = m.debounceThreshold := (updateState_ladders ..).2.2

theorem program_flag (m : Bss) (s : Sample) :
    (processLadders m s).2 =
      if (program m s).1.main.stable = m.main.stable ∧ (program m s).1.misc.stable = m.misc.stable
        then 0 else 1 := by
  obtain ⟨hmain, hmisc, -⟩ := updateState_ladders (processLadders m s).1 (processLadders m s).2
  rw [processLadders_flag, program, hmain, hmisc]

theorem program_generation (m : Bss) (s : Sample) :
    (program m s).1.buttonGeneration =
      if (program m s).1.main.stable = m.main.stable ∧ (program m s).1.misc.stable = m.misc.stable
        then m.buttonGeneration else m.buttonGeneration + 1 := by
  have hflag := program_flag m s
  change (updateState (processLadders m s).1 (processLadders m s).2).1.buttonGeneration = _
  split_ifs at hflag ⊢
  · rw [hflag]
    rfl
  · rw [hflag]
    rfl

/-- The counters count, and the threshold stays what it was. -/
structure Inv (t : UInt16) (x : Trace) : Prop where
  main : Counts t (mainLog x.samples) x.bss.main
  misc : Counts t (miscLog x.samples) x.bss.misc
  threshold : x.bss.debounceThreshold = t

theorem start_inv {t : UInt16} (ht : 1 ≤ t) : Inv t (start t) :=
  ⟨counts_boot ht, counts_boot ht, rfl⟩

theorem Inv.step {t : UInt16} {x : Trace} (h : Inv t x) (ht : 1 ≤ t) (s : Sample) :
    Inv t ⟨(program x.bss s).1, s :: x.samples⟩ where
  main := by
    rw [program_main, h.threshold]
    exact h.main.process ht s.main 0
  misc := by
    rw [program_misc, h.threshold]
    exact h.misc.process ht s.misc 0
  threshold := (program_threshold x.bss s).trans h.threshold

theorem Inv.sampleOk_iff {t : UInt16} {x : Trace} (h : Inv t x) (ht : 1 ≤ t) (s : Sample) :
    SampleOk t x s ↔ Unmixed t x s := by
  have hmain := h.main.confirmed_iff ht s.main 0
  have hmisc := h.misc.confirmed_iff ht s.misc 0
  rw [← h.threshold, ← program_main, h.threshold] at hmain
  rw [← h.threshold, ← program_misc, h.threshold] at hmisc
  constructor
  · intro hok
    exact ⟨hmain.mp hok.main, hmisc.mp hok.misc⟩
  · intro hunmixed
    exact ⟨hmain.mpr hunmixed.1, hmisc.mpr hunmixed.2, program_generation x.bss s⟩

/-- **Debouncing.** Every sample of a run is handled as a debouncer should exactly when
none of them completes a mixed row. -/
theorem debounced_iff (t : UInt16) (ht : 1 ≤ t) (samples : List Sample) :
    Along step (SampleOk t) (start t) samples ↔ Along step (Unmixed t) (start t) samples := by
  refine along_congr (I := Inv t) ?_ (fun x s h => h.sampleOk_iff ht s) (start_inv ht)
  intro x s y h _ hstep
  cases hstep
  exact h.step ht s

/-- A button of each ladder is pressed and let go again, with a reading between the bands
on the way. -/
def press : List Sample :=
  [⟨1400, 1400⟩, ⟨1450, 1500⟩, ⟨1500, 1500⟩, ⟨1500, 1500⟩, ⟨1500, 1400⟩, ⟨1400, 1400⟩,
    ⟨1400, 1400⟩, ⟨1400, 1400⟩]

theorem press_debounced : Along step (SampleOk debounceCount) (start debounceCount) press :=
  (debounced_iff debounceCount (by decide) press).mpr (by decide)

/-- Two samples that show button 1, then one that shows button 2: it is taken for stable. -/
def slide : List Sample := [⟨1500, 1400⟩, ⟨1500, 1400⟩, ⟨1700, 1400⟩]

theorem slide_not_debounced :
    ¬ Along step (SampleOk debounceCount) (start debounceCount) slide := by
  intro h
  obtain ⟨-, h⟩ := h
  obtain ⟨-, h⟩ := h _ rfl
  obtain ⟨h, -⟩ := h _ rfl
  have hshows := h.main.only (by decide)
  exact absurd (hshows.2 (some 1) (by decide)) (by decide)

end Jukeboy.Hid.Debounce
