import Mathlib.Algebra.Order.Round
import Mathlib.Data.Rat.Floor
import OpenManet.Lib.Knee
/-!
# Microphone gain

`encodeOne` of `internal/comms/audio/encoder.go` multiplies every sample by a
gain in Q8, shifts the product back and hands it to `softKnee`. The types are
the source's: samples are `int16`, gain and product `int32`, and the limiter
divides in `int64`. What is shown is that none of them gives way: the product
fits for every gain the configuration can express, down to -32768 times 256,
and the limiter is the soft knee on integers.

A gain is a rational here, as every finite `float32` is; its product with 256
is exact in `float64`.
-/

namespace OpenManet

namespace Audio

open Knee (bend curve)

/-! ## The limiter -/

def kneeStart : Int32 := 24576

/-- The radius to the positive rail. -/
def kneePosR : Int32 := 32767 - kneeStart

/-- The radius to the negative rail. -/
def kneeNegR : Int32 := 32768 - kneeStart

def softKnee (s : Int32) : Int16 :=
  if s > kneeStart then
    let d := (s - kneeStart).toInt64
    (kneeStart.toInt64 + kneePosR.toInt64 * d / (d + kneePosR.toInt64)).toInt16
  else if s < -kneeStart then
    let d := -s.toInt64 - kneeStart.toInt64
    (-(kneeStart.toInt64 + kneeNegR.toInt64 * d / (d + kneeNegR.toInt64))).toInt16
  else s.toInt16

/-! ## The gain -/

def gainQ8Shift : Int32 := 8

def unityGainQ8 : Int32 := 256

def maxGainQ8 : Int32 := 65536

/-- `math.Round` of a positive number rounds half up. -/
def micGainQ8 (gain : ℚ) : Int32 :=
  if gain ≤ 0 then unityGainQ8
  else
    let scaled := round (gain * 256)
    if scaled ≥ maxGainQ8.toInt then maxGainQ8
    else
      let q := Int32.ofInt scaled
      if q < 1 then 1 else q

/-- What the loop of `encodeOne` makes of a sample. -/
def gained (v : Int16) (q : Int32) : Int16 := softKnee ((v.toInt32 * q) >>> gainQ8Shift)

/-- A captured frame as it goes to the encoder. -/
def applyMicGain (gain : ℚ) (pcm : List Int16) : List Int16 :=
  let q := micGainQ8 gain
  if q ≠ unityGainQ8 then pcm.map (gained · q) else pcm

/-! ## The machine words -/

/-- **In sixty-four bits** the bent overshoot is what it is on integers. -/
theorem bent_toInt {r d : Int64} (hr : 0 < r.toInt) (hr' : r.toInt ≤ 8192) (hd : 0 ≤ d.toInt)
    (hd' : d.toInt < 2 ^ 32) :
    (kneeStart.toInt64 + r * d / (d + r)).toInt = 24576 + bend r.toInt d.toInt := by
  have hprod : r.toInt * d.toInt ≤ 8192 * 2 ^ 32 :=
    mul_le_mul hr' hd'.le hd (by norm_num)
  have hprod' : 0 ≤ r.toInt * d.toInt := mul_nonneg hr.le hd
  have hmul : (r * d).toInt = r.toInt * d.toInt := by
    rw [Int64.toInt_mul]
    exact Int.bmod_eq_of_le (by omega) (by omega)
  have hadd : (d + r).toInt = d.toInt + r.toInt := by
    rw [Int64.toInt_add]
    exact Int.bmod_eq_of_le (by omega) (by omega)
  have hnonneg := Knee.bend_nonneg hr hd
  have hlt := Knee.bend_lt hr hd
  have hdiv : (r * d / (d + r)).toInt = bend r.toInt d.toInt := by
    have hquot : (r.toInt * d.toInt).tdiv (d.toInt + r.toInt) = bend r.toInt d.toInt :=
      Int.tdiv_eq_ediv_of_nonneg hprod'
    rw [Int64.toInt_div, hmul, hadd, hquot]
    exact Int.bmod_eq_of_le (by omega) (by omega)
  have hknee : kneeStart.toInt64.toInt = 24576 := rfl
  rw [Int64.toInt_add, hdiv, hknee]
  exact Int.bmod_eq_of_le (by omega) (by omega)

/-- **The limiter is the soft knee**, and no conversion in it cuts anything
off. -/
theorem softKnee_toInt (s : Int32) : (softKnee s).toInt = curve 24576 8191 8192 s.toInt := by
  have hlow := s.le_toInt
  have hhigh := s.toInt_lt
  have hknee : kneeStart.toInt = 24576 := rfl
  have hneg : (-kneeStart).toInt = -24576 := rfl
  obtain ⟨hrail, hrail'⟩ := Knee.curve_mem (k := 24576) (r := 8191) (q := 8192) (by norm_num)
    (by norm_num) (by norm_num) s.toInt
  unfold softKnee
  split
  · next habove =>
    rw [gt_iff_lt, Int32.lt_iff_toInt_lt, hknee] at habove
    have hd : (s - kneeStart).toInt64.toInt = s.toInt - 24576 := by
      rw [Int32.toInt_toInt64, Int32.toInt_sub, hknee]
      exact Int.bmod_eq_of_le (by omega) (by omega)
    have hr : kneePosR.toInt64.toInt = 8191 := rfl
    have hbent := bent_toInt (r := kneePosR.toInt64) (d := (s - kneeStart).toInt64)
      (by rw [hr]; norm_num) (by rw [hr]; norm_num) (by rw [hd]; omega) (by rw [hd]; omega)
    rw [hr, hd, ← Knee.curve_above (q := 8192) habove] at hbent
    rw [Int64.toInt_toInt16, hbent]
    exact Int.bmod_eq_of_le (by omega) (by omega)
  split
  · next hno hbelow =>
    rw [Int32.lt_iff_toInt_lt, hneg] at hbelow
    have hs : (-s.toInt64).toInt = -s.toInt := by
      rw [Int64.toInt_neg, Int32.toInt_toInt64]
      exact Int.bmod_eq_of_le (by omega) (by omega)
    have hd : (-s.toInt64 - kneeStart.toInt64).toInt = -s.toInt - 24576 := by
      rw [Int64.toInt_sub, hs, Int32.toInt_toInt64, hknee]
      exact Int.bmod_eq_of_le (by omega) (by omega)
    have hr : kneeNegR.toInt64.toInt = 8192 := rfl
    have hbent := bent_toInt (r := kneeNegR.toInt64) (d := -s.toInt64 - kneeStart.toInt64)
      (by rw [hr]; norm_num) (by rw [hr]) (by rw [hd]; omega) (by rw [hd]; omega)
    have hcurve := Knee.curve_below (k := 24576) (r := 8191) (q := 8192) (by norm_num) hbelow
    rw [hr, hd] at hbent
    rw [Int64.toInt_toInt16, Int64.toInt_neg, hbent, ← hcurve,
      Int.bmod_eq_of_le (m := 2 ^ 64) (by omega) (by omega)]
    exact Int.bmod_eq_of_le (by omega) (by omega)
  · next hno hno' =>
    rw [gt_iff_lt, Int32.lt_iff_toInt_lt, hknee] at hno
    rw [Int32.lt_iff_toInt_lt, hneg] at hno'
    rw [Int32.toInt_toInt16, Knee.curve_between (by omega) (by omega)]
    exact Int.bmod_eq_of_le (by omega) (by omega)

/-- **The product fits**, at the very edge for the lowest sample and the
highest gain. -/
theorem product_toInt (v : Int16) {q : Int32} (hlow : 1 ≤ q) (hhigh : q ≤ maxGainQ8) :
    (v.toInt32 * q).toInt = v.toInt * q.toInt := by
  have hv := v.le_toInt
  have hv' := v.toInt_lt
  have hq : 1 ≤ q.toInt := Int32.le_iff_toInt_le.1 hlow
  have hq' : q.toInt ≤ 65536 := Int32.le_iff_toInt_le.1 hhigh
  have hleast : -2 ^ 15 * 65536 ≤ v.toInt * q.toInt := by nlinarith
  have hmost : v.toInt * q.toInt ≤ (2 ^ 15 - 1) * 65536 := by nlinarith
  rw [Int32.toInt_mul, Int16.toInt_toInt32]
  exact Int.bmod_eq_of_le (by omega) (by omega)

theorem toInt_nonneg {q : Int32} (hlow : 1 ≤ q) : 0 ≤ q.toInt :=
  le_trans (by decide) (Int32.le_iff_toInt_le.1 hlow)

theorem shifted_toInt (s : Int32) : (s >>> gainQ8Shift).toInt = s.toInt / 256 := by
  have hshift : (s >>> gainQ8Shift).toInt = (s.toBitVec.sshiftRight 8).toInt := rfl
  rw [hshift, BitVec.toInt_sshiftRight, Int.shiftRight_eq_div_pow]
  rfl

/-- A sample after gain and limiter. -/
theorem gained_toInt (v : Int16) {q : Int32} (hlow : 1 ≤ q) (hhigh : q ≤ maxGainQ8) :
    (gained v q).toInt = curve 24576 8191 8192 (v.toInt * q.toInt / 256) := by
  rw [gained, softKnee_toInt, shifted_toInt, product_toInt v hlow hhigh]

/-! ## What the gain does to a sample -/

/-- **The gains there are.** -/
theorem micGainQ8_mem (gain : ℚ) : 1 ≤ micGainQ8 gain ∧ micGainQ8 gain ≤ maxGainQ8 := by
  unfold micGainQ8
  split
  · exact ⟨by decide, by decide⟩
  next hpos =>
  dsimp only
  split
  · exact ⟨by decide, by decide⟩
  next hbelow =>
  have hscaled : (0 : ℤ) ≤ round (gain * 256) := by
    rw [round_eq]
    exact Int.floor_nonneg.2 (by linarith)
  have hmax : maxGainQ8.toInt = 65536 := rfl
  rw [hmax] at hbelow
  have hexact : (Int32.ofInt (round (gain * 256))).toInt = round (gain * 256) :=
    Int32.toInt_ofInt_of_le (by omega) (by omega)
  split
  · exact ⟨by decide, by decide⟩
  · next hone =>
    refine ⟨Int32.not_lt.1 hone, ?_⟩
    rw [Int32.le_iff_toInt_le, hexact, hmax]
    omega

section Sample

variable {v w : Int16} {q p : Int32}

/-- A louder sample of the same sign comes out no quieter. -/
theorem gained_mono (hlow : 1 ≤ q) (hhigh : q ≤ maxGainQ8) (h : v ≤ w) :
    gained v q ≤ gained w q := by
  have hq := toInt_nonneg hlow
  rw [Int16.le_iff_toInt_le, gained_toInt v hlow hhigh, gained_toInt w hlow hhigh]
  refine Knee.curve_mono (by norm_num) (by norm_num) (by norm_num) ?_
  exact Int.ediv_le_ediv (by norm_num) (mul_le_mul_of_nonneg_right (Int16.le_iff_toInt_le.1 h) hq)

/-- A shifted product keeps to the side of zero its sample is on, and moves
away from zero as the gain grows. -/
theorem shifted_outwards (v : Int16) (hlow : 1 ≤ q) (h : q ≤ p) :
    0 ≤ v.toInt * q.toInt / 256 ∧ v.toInt * q.toInt / 256 ≤ v.toInt * p.toInt / 256 ∨
      v.toInt * p.toInt / 256 ≤ v.toInt * q.toInt / 256 ∧ v.toInt * q.toInt / 256 ≤ 0 := by
  have hq := toInt_nonneg hlow
  have hqp : q.toInt ≤ p.toInt := Int32.le_iff_toInt_le.1 h
  rcases le_or_gt 0 v.toInt with hv | hv
  · exact .inl ⟨Int.ediv_nonneg (mul_nonneg hv hq) (by norm_num),
      Int.ediv_le_ediv (by norm_num) (mul_le_mul_of_nonneg_left hqp hv)⟩
  · have hprod : v.toInt * q.toInt ≤ 0 := mul_nonpos_of_nonpos_of_nonneg hv.le hq
    exact .inr ⟨Int.ediv_le_ediv (by norm_num) (mul_le_mul_of_nonpos_left hqp hv.le), by omega⟩

/-- More gain makes no sample quieter. -/
theorem abs_gained_le (v : Int16) (hlow : 1 ≤ q) (h : q ≤ p) (hhigh : p ≤ maxGainQ8) :
    |(gained v q).toInt| ≤ |(gained v p).toInt| := by
  rw [gained_toInt v hlow (Int32.le_trans h hhigh), gained_toInt v (Int32.le_trans hlow h) hhigh]
  exact Knee.abs_curve_le (by norm_num) (by norm_num) (by norm_num) (shifted_outwards v hlow h)

/-- **No sample changes its sign.** -/
theorem gained_sign (v : Int16) (hlow : 1 ≤ q) (hhigh : q ≤ maxGainQ8) :
    (0 ≤ v → 0 ≤ gained v q) ∧ (v ≤ 0 → gained v q ≤ 0) := by
  have hq := toInt_nonneg hlow
  have hzero : (0 : Int16).toInt = 0 := rfl
  simp only [Int16.le_iff_toInt_le, gained_toInt v hlow hhigh, hzero]
  constructor
  · intro hv
    exact Knee.curve_nonneg (by norm_num) (by norm_num)
      (Int.ediv_nonneg (mul_nonneg hv hq) (by norm_num))
  · intro hv
    have hprod : v.toInt * q.toInt ≤ 0 := mul_nonpos_of_nonpos_of_nonneg hv hq
    exact Knee.curve_nonpos (by norm_num) (by norm_num) (by omega)

end Sample

/-- **Gain cannot overflow or invert.** For every gain there is and every
sample the product fits, the limiter is the soft knee on integers, and what
comes out does not fall with the sample, does not shrink with the gain, does
not change its sign, and between the knees is the shifted product. -/
theorem micGain_sound :
    (∀ gain, 1 ≤ micGainQ8 gain ∧ micGainQ8 gain ≤ maxGainQ8) ∧
    ∀ (v : Int16) (q : Int32), 1 ≤ q → q ≤ maxGainQ8 →
      (v.toInt32 * q).toInt = v.toInt * q.toInt ∧
      (softKnee ((v.toInt32 * q) >>> gainQ8Shift)).toInt
        = curve 24576 8191 8192 (v.toInt * q.toInt / 256) ∧
      (∀ w, v ≤ w → gained v q ≤ gained w q) ∧
      (∀ p, q ≤ p → p ≤ maxGainQ8 → |(gained v q).toInt| ≤ |(gained v p).toInt|) ∧
      (0 ≤ v → 0 ≤ gained v q) ∧ (v ≤ 0 → gained v q ≤ 0) ∧
      (-24576 ≤ v.toInt * q.toInt / 256 → v.toInt * q.toInt / 256 ≤ 24576 →
        (gained v q).toInt = ((v.toInt32 * q) >>> gainQ8Shift).toInt) := by
  refine ⟨micGainQ8_mem, fun v q hlow hhigh => ?_⟩
  obtain ⟨hpos, hneg⟩ := gained_sign v hlow hhigh
  refine ⟨product_toInt v hlow hhigh, gained_toInt v hlow hhigh,
    fun w => gained_mono hlow hhigh, fun p => abs_gained_le v hlow, hpos, hneg, ?_⟩
  intro hleft hright
  rw [gained_toInt v hlow hhigh, Knee.curve_between hleft hright, shifted_toInt,
    product_toInt v hlow hhigh]

/-- The lowest sample at the highest gain. -/
theorem micGain_sound_edge :
    ((-32768 : Int16).toInt32 * maxGainQ8).toInt = -2147483648 ∧
      (softKnee (((-32768 : Int16).toInt32 * maxGainQ8) >>> gainQ8Shift)).toInt = -32759 := by
  obtain ⟨hprod, hknee, -⟩ := micGain_sound.2 (-32768) maxGainQ8 (by decide) (by decide)
  exact ⟨hprod, hknee⟩

end Audio

end OpenManet
