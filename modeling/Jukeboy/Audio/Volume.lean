import Mathlib.Algebra.Order.Ring.Int
import Jukeboy.Base.LittleEndian
import Jukeboy.Player.State

/-! # The volume

The player scales 16-bit samples where they lie, by the gain of one of eleven levels. -/
namespace Jukeboy.Audio.Volume

open Jukeboy.Base.LittleEndian Jukeboy.Player.State

/-- `s_volume_gain_q8`. -/
def volumeGainQ8 : List Nat := [0, 26, 51, 77, 102, 128, 154, 179, 205, 230, 256]

def volumeQ8One : Nat := 256

def gainQ8 (level : Nat) : Nat := volumeGainQ8.getD level 0

theorem gainQ8_le (level : Nat) : gainQ8 level ≤ volumeQ8One := by
  have hall : ∀ gain ∈ volumeGainQ8, gain ≤ volumeQ8One := by decide
  rw [gainQ8, List.getD_eq_getElem?_getD]
  cases hget : volumeGainQ8[level]? with
  | none => exact Nat.zero_le _
  | some gain => exact hall gain (List.mem_of_getElem? hget)

/-- `player_service_set_volume_absolute`. -/
def setVolumeAbsolute (avrcVol : UInt8) : Nat :=
  let level := avrcVol.toNat * (volumeLevelCount - 1) / 127
  if level ≥ volumeLevelCount then volumeLevelCount - 1 else level

theorem setVolumeAbsolute_lt (avrcVol : UInt8) : setVolumeAbsolute avrcVol < volumeLevelCount := by
  unfold setVolumeAbsolute
  dsimp only
  split
  · decide
  · omega

/-! ## Samples -/

/-- The cast to `int16_t`. -/
def toInt16 (v : Int) : Int := (v + 32768) % 65536 - 32768

/-- The `int16_t` two bytes of memory are. -/
def sampleOf (lo hi : UInt8) : Int := toInt16 (leNat [lo, hi])

/-- The two bytes of memory an `int16_t` is. -/
def sampleBytes (sample : Int) : List UInt8 := leBytes 2 (sample % 65536).toNat

/-- The samples in a piece of memory; a byte at the end that has no partner is none. -/
def samples : List UInt8 → List Int
  | lo :: hi :: rest => sampleOf lo hi :: samples rest
  | [_] | [] => []

def IsInt16 (v : Int) : Prop := -32768 ≤ v ∧ v ≤ 32767

theorem isInt16_toInt16 (v : Int) : IsInt16 (toInt16 v) := by
  unfold IsInt16 toInt16
  omega

theorem toInt16_of_isInt16 {v : Int} (h : IsInt16 v) : toInt16 v = v := by
  unfold IsInt16 at h
  unfold toInt16
  omega

theorem samples_sampleBytes {sample : Int} (h : IsInt16 sample) (rest : List UInt8) :
    samples (sampleBytes sample ++ rest) = sample :: samples rest := by
  have hlen : (sampleBytes sample).length = 2 := length_leBytes 2 _
  have hnat : leNat (sampleBytes sample) = (sample % 65536).toNat := by
    have hlt : (sample % 65536).toNat < 256 ^ 2 := by omega
    exact leNat_leBytes_of_lt hlt
  obtain ⟨lo, hi, hbytes⟩ := List.length_eq_two.mp hlen
  have hsample : sampleOf lo hi = sample := by
    rw [sampleOf, ← hbytes, hnat]
    unfold IsInt16 at h
    unfold toInt16
    omega
  rw [hbytes]
  exact congrArg (· :: samples rest) hsample

theorem samples_append {data : List UInt8} (h : 2 ∣ data.length) (rest : List UInt8) :
    samples (data ++ rest) = samples data ++ samples rest := by
  induction data using samples.induct with
  | case1 lo hi more ih =>
    have hmore : 2 ∣ more.length := (Nat.dvd_add_left ⟨1, rfl⟩).mp h
    rw [List.cons_append, List.cons_append, samples, ih hmore, samples, List.cons_append]
  | case2 b =>
    rw [List.length_singleton] at h
    omega
  | case3 => rfl

theorem samples_silence (n : Nat) : samples (List.replicate (2 * n) 0) = List.replicate n 0 := by
  induction n with
  | zero => rfl
  | succ n ih =>
    have hzero : sampleOf 0 0 = 0 := by decide
    rw [Nat.mul_succ, List.replicate_succ, List.replicate_succ, samples, ih, hzero]
    exact List.replicate_succ.symm

/-! ## Scaling -/

/-- `player_service_scale_sample`. -/
def scaleSample (sample : Int) (gain : Nat) : Int := toInt16 ((sample * gain) >>> (8 : Nat))

/-- The loop of `player_service_apply_volume`. -/
def scaleSamples (gain : Nat) : List UInt8 → List UInt8
  | lo :: hi :: rest => sampleBytes (scaleSample (sampleOf lo hi) gain) ++ scaleSamples gain rest
  | [b] => [b]
  | [] => []

/-- `player_service_apply_volume`. -/
def applyVolume (level : Nat) (data : List UInt8) : List UInt8 :=
  if data.length < 2 then data
  else if gainQ8 level ≥ volumeQ8One then data
  else scaleSamples (gainQ8 level) data

/-- The sound of a sample at a level. -/
def scaled (level : Nat) (sample : Int) : Int := sample * gainQ8 level / 256

/-- Scaling never makes a sample louder, and so never clips. -/
theorem scaled_between (level : Nat) (sample : Int) :
    min sample 0 ≤ scaled level sample ∧ scaled level sample ≤ max sample 0 := by
  have hgain : (gainQ8 level : Int) ≤ 256 := Int.ofNat_le.mpr (gainQ8_le level)
  have hpos : (0 : Int) ≤ gainQ8 level := Int.natCast_nonneg _
  unfold scaled
  rcases Int.le_total 0 sample with hs | hs
  · have hlow : 0 ≤ sample * gainQ8 level := Int.mul_nonneg hs hpos
    have hhigh : sample * gainQ8 level ≤ sample * 256 := Int.mul_le_mul_of_nonneg_left hgain hs
    omega
  · have hlow : sample * 256 ≤ sample * gainQ8 level := Int.mul_le_mul_of_nonpos_left hs hgain
    have hhigh : sample * gainQ8 level ≤ 0 := Int.mul_nonpos_of_nonpos_of_nonneg hs hpos
    omega

theorem isInt16_scaled {sample : Int} (h : IsInt16 sample) (level : Nat) :
    IsInt16 (scaled level sample) := by
  have hbetween := scaled_between level sample
  unfold IsInt16 at h ⊢
  omega

theorem scaleSample_eq {sample : Int} (h : IsInt16 sample) (level : Nat) :
    scaleSample sample (gainQ8 level) = scaled level sample := by
  rw [scaleSample, Int.shiftRight_eq_div_pow]
  exact toInt16_of_isInt16 (isInt16_scaled h level)

theorem scaled_full {level : Nat} (h : gainQ8 level ≥ volumeQ8One) (sample : Int) :
    scaled level sample = sample := by
  have hgain : gainQ8 level = 256 := Nat.le_antisymm (gainQ8_le level) h
  rw [scaled, hgain]
  exact Int.mul_ediv_cancel _ (by decide)

theorem samples_scaleSamples (level : Nat) (data : List UInt8) :
    samples (scaleSamples (gainQ8 level) data) = (samples data).map (scaled level) := by
  induction data using samples.induct with
  | case1 lo hi rest ih =>
    have hsample : IsInt16 (sampleOf lo hi) := isInt16_toInt16 _
    rw [scaleSamples, scaleSample_eq hsample, samples_sampleBytes (isInt16_scaled hsample level), ih,
      samples, List.map_cons]
  | case2 b => rfl
  | case3 => rfl

theorem length_scaleSamples (gain : Nat) (data : List UInt8) :
    (scaleSamples gain data).length = data.length := by
  induction data using samples.induct with
  | case1 lo hi rest ih =>
    rw [scaleSamples, List.length_append, ih, sampleBytes, length_leBytes, List.length_cons,
      List.length_cons]
    omega
  | case2 b => rfl
  | case3 => rfl

/-- **The volume** is applied to every sample. -/
theorem samples_applyVolume (level : Nat) (data : List UInt8) :
    samples (applyVolume level data) = (samples data).map (scaled level) := by
  unfold applyVolume
  split
  · next hshort =>
    rcases data with _ | ⟨low, _ | ⟨high, rest⟩⟩
    · rfl
    · rfl
    · exact absurd hshort (by simp)
  · split
    · next hfull =>
      rw [List.map_congr_left fun sample _ => scaled_full hfull sample, List.map_id']
    · exact samples_scaleSamples level data

@[simp] theorem length_applyVolume (level : Nat) (data : List UInt8) :
    (applyVolume level data).length = data.length := by
  unfold applyVolume
  split
  · rfl
  · split
    · rfl
    · exact length_scaleSamples _ _

end Jukeboy.Audio.Volume
