import Mathlib.Algebra.GroupWithZero.Nat
import Mathlib.Data.Fintype.Basic
import Mathlib.Tactic.Common

/-! # The button program of the ULP coprocessor

Every run of the program samples two resistor ladders, debounces the value each of them
shows and publishes both. Data words have 16 bits. `move r3, x` with the `ld` or `st`
behind it is a read or a write of `x`, and a block that ends in a jump is a call of the
block jumped to. -/
namespace Jukeboy.Hid.Ulp

/-- The words of one ladder, `main_*` or `misc_*`. -/
structure Ladder where
  stable : UInt16
  counter : UInt16
  lastRaw : UInt16
deriving DecidableEq, Repr

structure Bss where
  main : Ladder
  misc : Ladder
  debounceThreshold : UInt16
  buttonState : UInt16
  buttonGeneration : UInt16
deriving DecidableEq, Repr

/-! ## Measuring -/

abbrev adcOversamplingFactorLog : UInt16 := 4

abbrev adcOversamplingFactor : Nat := 16

/-- `main_measure` and `misc_measure`: the sum of the conversions in `r0`, shifted. -/
def measure (adc : Fin adcOversamplingFactor → UInt16) : UInt16 :=
  (List.finRange adcOversamplingFactor).foldl (fun r0 stage => r0 + adc stage) 0 >>>
    adcOversamplingFactorLog

/-! ## Decoding -/

/-- A pair of checks: `sub r1, r0, low` and `jump same, ov`, then `sub r1, high, r0` and
`jump next, ov`, else `move r0, value` and the jump to `debounce`. The jump to `same` is
`none`. -/
def check (low high value : UInt16) (next : UInt16 → Option UInt16) (r0 : UInt16) :
    Option UInt16 :=
  if r0 < low then none
  else if high < r0 then next r0
  else some value

def check123 (r0 : UInt16) : Option UInt16 := if r0 < 4045 then none else some 7

def check23 : UInt16 → Option UInt16 := check 3265 3365 6 check123

def check13 : UInt16 → Option UInt16 := check 2640 2740 5 check23

def check3 : UInt16 → Option UInt16 := check 2275 2375 4 check13

def check12 : UInt16 → Option UInt16 := check 1861 1961 3 check3

def check2 : UInt16 → Option UInt16 := check 1664 1764 2 check12

def check1 : UInt16 → Option UInt16 := check 1477 1577 1 check2

/-- The buttons a reading shows, `none` between the bands. -/
def decode : UInt16 → Option UInt16 := check 1343 1443 0 check1

/-! ## Debouncing -/

def Ladder.same (l : Ladder) : Ladder := { l with counter := 0 }

def Ladder.commit (l : Ladder) (r0 : UInt16) : Ladder := { l with stable := r0, counter := 0 }

/-- The ladder and `r2`, the flag that something changed. -/
def Ladder.debounce (l : Ladder) (threshold r0 r2 : UInt16) : Ladder × UInt16 :=
  if r0 - l.stable = 0 then (l.same, r2)
  else
    let l := { l with counter := l.counter + 1 }
    if l.counter - threshold = 0 then (l.commit r0, 1) else (l, r2)

/-- What the program does with a reading of either ladder. -/
def Ladder.process (l : Ladder) (threshold raw r2 : UInt16) : Ladder × UInt16 :=
  let l := { l with lastRaw := raw }
  match decode raw with
  | none => (l.same, r2)
  | some r0 => l.debounce threshold r0 r2

/-! ## The program -/

/-- `update_state` and `store_state`, up to the store. -/
def storeState (m : Bss) : Bss :=
  let r1 := m.misc.stable + m.misc.stable
  let r1 := r1 + r1
  let r1 := r1 + r1
  { m with buttonState := m.main.stable + r1 }

def countChange (m : Bss) : Bss := { m with buttonGeneration := m.buttonGeneration + 1 }

/-- `update_state` to `done`: what they leave and whether they wake the task. -/
def updateState (m : Bss) (r2 : UInt16) : Bss × Bool :=
  let m := storeState m
  if r2 + 0 = 0 then (m, false) else (countChange m, true)

/-- The averaged readings of one run of the program. -/
structure Sample where
  main : UInt16
  misc : UInt16
deriving DecidableEq, Repr

/-- The program from the averaged readings up to `update_state`. -/
def processLadders (m : Bss) (s : Sample) : Bss × UInt16 :=
  let (main, r2) := m.main.process m.debounceThreshold s.main 0
  let (misc, r2) := m.misc.process m.debounceThreshold s.misc r2
  ({ m with main, misc }, r2)

/-- One run of the program, from the averaged readings on. -/
def program (m : Bss) (s : Sample) : Bss × Bool :=
  let (m, r2) := processLadders m s
  updateState m r2

def entry (m : Bss) (main misc : Fin adcOversamplingFactor → UInt16) : Bss × Bool :=
  program m ⟨measure main, measure misc⟩

/-- What `hid_service_init_buttons` writes before it starts the program. -/
def boot (threshold : UInt16) : Bss := ⟨⟨0, 0, 0⟩, ⟨0, 0, 0⟩, threshold, 0, 0⟩

/-- `HID_SVC_BUTTON_DEBOUNCE_COUNT`. -/
def debounceCount : UInt16 := 3

/-! ## What the operations do -/

theorem foldl_add_toNat {adc : Fin adcOversamplingFactor → UInt16} (h : ∀ i, (adc i).toNat < 4096)
    (stages : List (Fin adcOversamplingFactor)) (r0 : UInt16)
    (hfits : r0.toNat + 4095 * stages.length < 2 ^ 16) :
    (stages.foldl (fun r0 stage => r0 + adc stage) r0).toNat =
      r0.toNat + (stages.map fun i => (adc i).toNat).sum := by
  induction stages generalizing r0 with
  | nil => rfl
  | cons i stages ih =>
    have hi := h i
    rw [List.length_cons] at hfits
    have hadd : (r0 + adc i).toNat = r0.toNat + (adc i).toNat := by
      rw [UInt16.toNat_add, Nat.mod_eq_of_lt (by omega)]
    rw [List.foldl_cons, ih _ (by rw [hadd]; omega), hadd, List.map_cons, List.sum_cons,
      Nat.add_assoc]

/-- The reading is the average of the 12-bit conversions: their sum fits a word. -/
theorem measure_toNat {adc : Fin adcOversamplingFactor → UInt16} (h : ∀ i, (adc i).toNat < 4096) :
    (measure adc).toNat =
      ((List.finRange adcOversamplingFactor).map fun i => (adc i).toNat).sum / 16 := by
  rw [measure, UInt16.toNat_shiftRight, foldl_add_toNat h _ _ (by rw [List.length_finRange]; decide),
    Nat.shiftRight_eq_div_pow, UInt16.toNat_zero, Nat.zero_add]
  rfl

theorem eq_of_sub_eq_zero {a b : UInt16} (h : a - b = 0) : a = b :=
  (UInt16.sub_eq_iff_eq_add.mp h).trans (UInt16.zero_add b)

namespace Ladder

variable {l : Ladder} {threshold raw r2 : UInt16}

/-- Whether a decoded reading counts towards a change of the stable value. -/
def moves (stable : UInt16) (decoded : Option UInt16) : Bool :=
  match decoded with
  | none => false
  | some value => value ≠ stable

theorem process_cases (l : Ladder) (threshold raw r2 : UInt16) :
    (moves l.stable (decode raw) = false ∧
      l.process threshold raw r2 = ({ l with counter := 0, lastRaw := raw }, r2)) ∨
    ∃ value, decode raw = some value ∧ value ≠ l.stable ∧
      ((l.counter + 1 = threshold ∧
          l.process threshold raw r2 = ({ stable := value, counter := 0, lastRaw := raw }, 1)) ∨
        (l.counter + 1 ≠ threshold ∧
          l.process threshold raw r2 = ({ l with counter := l.counter + 1, lastRaw := raw }, r2))) := by
  unfold process debounce
  cases hdecode : decode raw with
  | none => exact .inl ⟨rfl, rfl⟩
  | some value =>
    by_cases hstable : value = l.stable
    · refine .inl ⟨by simp [moves, hstable], ?_⟩
      simp only [hstable, UInt16.sub_self, if_true]
      rfl
    · have hne : value - l.stable ≠ 0 := fun h => hstable (eq_of_sub_eq_zero h)
      refine .inr ⟨value, rfl, hstable, ?_⟩
      by_cases hcount : l.counter + 1 = threshold
      · refine .inl ⟨hcount, ?_⟩
        simp only [hne, if_false, hcount, UInt16.sub_self, if_true]
        rfl
      · refine .inr ⟨hcount, ?_⟩
        have hlow : l.counter + 1 - threshold ≠ 0 := fun h => hcount (eq_of_sub_eq_zero h)
        simp only [hne, if_false, hlow]

/-- `r2` is set exactly when the stable value changes. -/
theorem process_flag (l : Ladder) (threshold raw r2 : UInt16) :
    (l.process threshold raw r2).2 =
      if (l.process threshold raw r2).1.stable = l.stable then r2 else 1 := by
  obtain ⟨-, h⟩ | ⟨value, -, hne, ⟨-, h⟩ | ⟨-, h⟩⟩ := process_cases l threshold raw r2
  · rw [h, if_pos rfl]
  · rw [h, if_neg hne]
  · rw [h, if_pos rfl]

/-- The flag that comes in does not matter to the ladder. -/
theorem process_fst (l : Ladder) (threshold raw r2 : UInt16) :
    (l.process threshold raw r2).1 = (l.process threshold raw 0).1 := by
  unfold process debounce
  cases decode raw with
  | none => rfl
  | some value =>
    dsimp only
    split
    · rfl
    · split <;> rfl

end Ladder

/-- `r2` is set exactly when one of the two stable values changes. -/
theorem processLadders_flag (m : Bss) (s : Sample) :
    (processLadders m s).2 =
      if (processLadders m s).1.main.stable = m.main.stable ∧
          (processLadders m s).1.misc.stable = m.misc.stable
        then 0 else 1 := by
  simp only [processLadders, Ladder.process_flag]
  split_ifs <;> simp_all

/-- Storing the state of unchanged stable values changes nothing. -/
theorem storeState_buttonState {m n : Bss} (hmain : n.main.stable = m.main.stable)
    (hmisc : n.misc.stable = m.misc.stable) :
    (storeState n).buttonState = (storeState m).buttonState := by
  unfold storeState
  rw [hmain, hmisc]

end Jukeboy.Hid.Ulp
