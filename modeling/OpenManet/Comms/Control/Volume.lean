import Mathlib.Algebra.Order.Ring.Int
import Mathlib.Logic.Function.Iterate
import Mathlib.Tactic.Linarith
import Mathlib.Tactic.Ring
/-!
# Mixer levels in percent

`readPercent` and `writePercent` of `internal/comms/control/alsa/volume.go`: a
control has a range, a level is a percentage of it, and both ways are rounded
down. So a level that is read and written back does not rise; it stays where it
is when it is a whole number of percent, and falls otherwise.

An `int` has `bits` bits besides its sign, 63 or 31, and its arithmetic wraps.
A control is what the mixer answers for it: its range, its channels, and the
errors of reading and writing them.
-/

namespace OpenManet

namespace Alsa

/-- What fits an `int`. -/
def InRange (bits : ℕ) (n : ℤ) : Prop := -2 ^ bits ≤ n ∧ n < 2 ^ bits

/-- The result of an operation on `int`s. -/
def int (bits : ℕ) (n : ℤ) : ℤ := Int.bmod n (2 ^ (bits + 1))

/-- What fits is left as it is. -/
theorem int_of_inRange {bits : ℕ} {n : ℤ} (h : InRange bits n) : int bits n = n := by
  obtain ⟨hlow, hhigh⟩ := h
  have hpow : ((2 ^ (bits + 1) : ℕ) : ℤ) = 2 * 2 ^ bits := by
    push_cast
    ring
  exact Int.bmod_eq_of_le (by omega) (by omega)

/-- `Ctl`. -/
structure Ctl where
  rangeMin : Except String ℤ
  rangeMax : Except String ℤ
  /-- The channels. -/
  values : List ℤ
  /-- What `Value` fails with, if it does. -/
  readErr : ℕ → Option String
  /-- What `SetValue` fails with, if it does. -/
  writeErr : ℕ → Option String

/-- `Value`. -/
def Ctl.value (ctl : Ctl) (i : ℕ) : Except String ℤ :=
  match ctl.readErr i with
  | some e => .error e
  | none => .ok (ctl.values.getD i 0)

/-- `fmt.Errorf("…: %w", err)`. -/
def wrapErr {α : Type} (what : String) : Except String α → Except String α
  | .error e => .error (what ++ ": " ++ e)
  | .ok a => .ok a

/-- The range of a control, which both ways ask for first. -/
def Ctl.range (ctl : Ctl) : Except String (ℤ × ℤ) := do
  let minV ← wrapErr "range min" ctl.rangeMin
  let maxV ← wrapErr "range max" ctl.rangeMax
  if maxV ≤ minV then throw ("invalid range [" ++ toString minV ++ ", " ++ toString maxV ++ "]")
  return (minV, maxV)

variable (bits : ℕ)

/-- The percentage of a value. -/
def percentOf (minV maxV val : ℤ) : ℤ :=
  int bits (Int.tdiv (int bits (100 * int bits (val - minV))) (int bits (maxV - minV)))

/-- `readPercent`. -/
def readPercent (ctl : Ctl) : Except String ℤ := do
  let (minV, maxV) ← ctl.range
  let val ← wrapErr "read value" (ctl.value 0)
  return percentOf bits minV maxV val

/-- A percentage between 0 and 100. -/
def clampPct (pct : ℤ) : ℤ :=
  let pct := if pct < 0 then 0 else pct
  if 100 < pct then 100 else pct

/-- The value of a percentage. -/
def valueOf (minV maxV pct : ℤ) : ℤ :=
  int bits (minV + int bits (Int.tdiv (int bits (int bits (maxV - minV) * clampPct pct)) 100))

/-- A value is written to one channel after the other. -/
def setChannels (val : ℤ) : List ℕ → Ctl → Ctl × Except String Unit
  | [], ctl => (ctl, .ok ())
  | i :: is, ctl =>
      match ctl.writeErr i with
      | some e => (ctl, .error ("set value channel " ++ Nat.repr i ++ ": " ++ e))
      | none => setChannels val is { ctl with values := ctl.values.set i val }

/-- `writePercent`. -/
def writePercent (ctl : Ctl) (pct : ℤ) : Ctl × Except String Unit :=
  match ctl.range with
  | .error e => (ctl, .error e)
  | .ok (minV, maxV) =>
      setChannels (valueOf bits minV maxV pct) (List.range ctl.values.length) ctl

/-- The level that is shown is applied again. -/
def reapply (ctl : Ctl) : Ctl :=
  match readPercent bits ctl with
  | .error _ => ctl
  | .ok pct => (writePercent bits ctl pct).1

/-! ## The two roundings -/

section Rounding

variable {minV maxV val pct : ℤ}

theorem clampPct_mem (pct : ℤ) : 0 ≤ clampPct pct ∧ clampPct pct ≤ 100 := by
  unfold clampPct
  dsimp only
  split_ifs <;> omega

theorem clampPct_mono {pct pct' : ℤ} (h : pct ≤ pct') : clampPct pct ≤ clampPct pct' := by
  unfold clampPct
  dsimp only
  split_ifs <;> omega

theorem clampPct_of_mem (h : 0 ≤ pct ∧ pct ≤ 100) : clampPct pct = pct := by
  unfold clampPct
  dsimp only
  split_ifs <;> omega

/-- A range whose hundredfold is an `int`. -/
structure Fits (bits : ℕ) (minV maxV : ℤ) : Prop where
  low : InRange bits minV
  high : InRange bits maxV
  lt : minV < maxV
  wide : InRange bits (100 * (maxV - minV))

/-- **Nothing overflows** on the way to a value. -/
theorem valueOf_eq (h : Fits bits minV maxV) :
    valueOf bits minV maxV pct = minV + (maxV - minV) * clampPct pct / 100 := by
  obtain ⟨hmin, hmax, hlt, hwide⟩ := h
  obtain ⟨hlow, hhigh⟩ := clampPct_mem pct
  have hpow : (0 : ℤ) < 2 ^ bits := by positivity
  have hnonneg : 0 ≤ (maxV - minV) * clampPct pct := mul_nonneg (by omega) hlow
  have hle : (maxV - minV) * clampPct pct ≤ 100 * (maxV - minV) := by nlinarith
  have hquot : (maxV - minV) * clampPct pct / 100 ≤ maxV - minV := by omega
  have hquot' : 0 ≤ (maxV - minV) * clampPct pct / 100 := by omega
  obtain ⟨hmin, hmin'⟩ := hmin
  obtain ⟨hmax, hmax'⟩ := hmax
  obtain ⟨-, hwide⟩ := hwide
  rw [valueOf, int_of_inRange (n := maxV - minV) ⟨by omega, by omega⟩,
    int_of_inRange (n := (maxV - minV) * clampPct pct) ⟨by omega, by omega⟩,
    Int.tdiv_eq_ediv_of_nonneg hnonneg, int_of_inRange (n := _ / 100) ⟨by omega, by omega⟩,
    int_of_inRange ⟨by omega, by omega⟩]

/-- Nor on the way back. -/
theorem percentOf_eq (h : Fits bits minV maxV) (hval : minV ≤ val ∧ val ≤ maxV) :
    percentOf bits minV maxV val = 100 * (val - minV) / (maxV - minV) := by
  obtain ⟨⟨hmin, hmin'⟩, ⟨hmax, hmax'⟩, hlt, -, hwide⟩ := h
  have hpow : (0 : ℤ) < 2 ^ bits := by positivity
  have hnonneg : 0 ≤ 100 * (val - minV) := by omega
  have hquot : 0 ≤ 100 * (val - minV) / (maxV - minV) :=
    Int.ediv_nonneg hnonneg (by omega)
  have hquot' : 100 * (val - minV) / (maxV - minV) ≤ 100 * (val - minV) :=
    Int.ediv_le_self _ hnonneg
  rw [percentOf, int_of_inRange (n := val - minV) ⟨by omega, by omega⟩,
    int_of_inRange (n := 100 * (val - minV)) ⟨by omega, by omega⟩,
    int_of_inRange (n := maxV - minV) ⟨by omega, by omega⟩,
    Int.tdiv_eq_ediv_of_nonneg hnonneg, int_of_inRange ⟨by omega, by omega⟩]

/-- What is read is a percentage. -/
theorem percentOf_mem (h : Fits bits minV maxV) (hval : minV ≤ val ∧ val ≤ maxV) :
    0 ≤ percentOf bits minV maxV val ∧ percentOf bits minV maxV val ≤ 100 := by
  have hlt := h.lt
  rw [percentOf_eq bits h hval]
  constructor
  · exact Int.ediv_nonneg (by omega) (by omega)
  · exact Int.ediv_le_of_le_mul (by omega) (by omega)

/-- A value lies in the range. -/
theorem valueOf_mem (h : Fits bits minV maxV) (pct : ℤ) :
    minV ≤ valueOf bits minV maxV pct ∧ valueOf bits minV maxV pct ≤ maxV := by
  have hlt := h.lt
  obtain ⟨hlow, hhigh⟩ := clampPct_mem pct
  have hnonneg : 0 ≤ (maxV - minV) * clampPct pct := mul_nonneg (by omega) hlow
  have hle : (maxV - minV) * clampPct pct ≤ (maxV - minV) * 100 :=
    mul_le_mul_of_nonneg_left hhigh (by omega)
  rw [valueOf_eq bits h]
  omega

/-- A higher percentage gives no lower value. -/
theorem valueOf_mono (h : Fits bits minV maxV) {pct pct' : ℤ} (hle : pct ≤ pct') :
    valueOf bits minV maxV pct ≤ valueOf bits minV maxV pct' := by
  have hlt := h.lt
  have hmul : (maxV - minV) * clampPct pct ≤ (maxV - minV) * clampPct pct' :=
    mul_le_mul_of_nonneg_left (clampPct_mono hle) (by omega)
  rw [valueOf_eq bits h, valueOf_eq bits h]
  omega

/-- The lower end. -/
theorem valueOf_zero (h : Fits bits minV maxV) : valueOf bits minV maxV 0 = minV := by
  rw [valueOf_eq bits h, clampPct_of_mem (by omega)]
  simp

/-- The upper end. -/
theorem valueOf_hundred (h : Fits bits minV maxV) : valueOf bits minV maxV 100 = maxV := by
  rw [valueOf_eq bits h, clampPct_of_mem (by omega)]
  omega

/-- The value a read value is written back as. -/
def relevel (minV maxV val : ℤ) : ℤ := valueOf bits minV maxV (percentOf bits minV maxV val)

/-- Both roundings at once. -/
theorem relevel_eq (h : Fits bits minV maxV) (hval : minV ≤ val ∧ val ≤ maxV) :
    relevel bits minV maxV val
      = minV + (maxV - minV) * (100 * (val - minV) / (maxV - minV)) / 100 := by
  rw [relevel, valueOf_eq bits h, clampPct_of_mem (percentOf_mem bits h hval),
    percentOf_eq bits h hval]

/-- What is written back is not above what was read. -/
theorem relevel_le (h : Fits bits minV maxV) (hval : minV ≤ val ∧ val ≤ maxV) :
    relevel bits minV maxV val ≤ val := by
  have hround := Int.mul_ediv_self_le (x := 100 * (val - minV)) (k := maxV - minV)
    (by have := h.lt; omega)
  rw [relevel_eq bits h hval]
  omega

/-- **It is the same when the value is a whole number of percent**, and only
then. -/
theorem relevel_eq_self_iff (h : Fits bits minV maxV) (hval : minV ≤ val ∧ val ≤ maxV) :
    relevel bits minV maxV val = val ↔ maxV - minV ∣ 100 * (val - minV) := by
  have hlt := h.lt
  have hround := Int.mul_ediv_self_le (x := 100 * (val - minV)) (k := maxV - minV) (by omega)
  rw [relevel_eq bits h hval]
  constructor
  · intro heq
    refine ⟨100 * (val - minV) / (maxV - minV), ?_⟩
    omega
  · intro hdvd
    have hcancel := Int.mul_ediv_cancel' hdvd
    omega

end Rounding

/-! ## A control that answers -/

/-- A control whose range is `[minV, maxV]` and that is read and written without
an error. -/
structure Works (ctl : Ctl) (minV maxV : ℤ) : Prop where
  min : ctl.rangeMin = .ok minV
  max : ctl.rangeMax = .ok maxV
  read : ctl.readErr 0 = none
  write : ∀ i, ctl.writeErr i = none
  channels : ctl.values ≠ []

/-- Every channel has the value. -/
def Ctl.allAt (ctl : Ctl) (val : ℤ) : Ctl :=
  { ctl with values := List.replicate ctl.values.length val }

section Answers

variable {ctl : Ctl} {minV maxV : ℤ}

theorem Works.allAt (h : Works ctl minV maxV) (val : ℤ) : Works (ctl.allAt val) minV maxV where
  min := h.min
  max := h.max
  read := h.read
  write := h.write
  channels := by simpa [Ctl.allAt] using h.channels

@[simp] theorem allAt_allAt (ctl : Ctl) (val val' : ℤ) :
    (ctl.allAt val).allAt val' = ctl.allAt val' := by
  simp [Ctl.allAt]

theorem Works.range (h : Works ctl minV maxV) (hlt : minV < maxV) :
    ctl.range = .ok (minV, maxV) := by
  have hnot : ¬ maxV ≤ minV := by omega
  simp [Ctl.range, h.min, h.max, wrapErr, hnot, bind, Except.bind, pure, Except.pure]

/-- The channels from `k` on are written, the others stay. -/
theorem setChannels_eq (hwrite : ∀ i, ctl.writeErr i = none) (val : ℤ) (n : ℕ) :
    ∀ k (values : List ℤ), values.length = k + n →
      setChannels val (List.range' k n) { ctl with values }
        = ({ ctl with values := values.take k ++ List.replicate n val }, .ok ()) := by
  induction n with
  | zero =>
    intro k values hlen
    have htake : values.take k = values := List.take_of_length_le (by omega)
    simp [setChannels, htake]
  | succ n ih =>
    intro k values hlen
    have hset : (values.set k val).take (k + 1) = values.take k ++ [val] := by
      rw [List.take_set, List.take_succ_eq_append_getElem (by omega),
        List.set_append_right _ _ (by simp)]
      simp [Nat.min_eq_left (show k ≤ values.length by omega)]
    rw [List.range'_succ, setChannels]
    simp only [hwrite]
    rw [ih (k + 1) (values.set k val) (by simp; omega), hset, List.append_assoc]
    rfl

/-- Every channel is written. -/
theorem writePercent_eq (hworks : Works ctl minV maxV) (hlt : minV < maxV) (pct : ℤ) :
    writePercent bits ctl pct = (ctl.allAt (valueOf bits minV maxV pct), .ok ()) := by
  have hset := setChannels_eq hworks.write (valueOf bits minV maxV pct) ctl.values.length 0
    ctl.values (by omega)
  simp only [writePercent, hworks.range hlt, List.range_eq_range']
  simpa [Ctl.allAt] using hset

/-- The value of the first channel is read. -/
theorem readPercent_allAt (hworks : Works ctl minV maxV) (hlt : minV < maxV) (val : ℤ) :
    readPercent bits (ctl.allAt val) = .ok (percentOf bits minV maxV val) := by
  have hvalue : (ctl.allAt val).value 0 = .ok val := by
    have hpos : 0 < ctl.values.length := List.length_pos_iff.mpr hworks.channels
    simp [Ctl.value, Ctl.allAt, hworks.read, hpos]
  simp [readPercent, (hworks.allAt val).range hlt, hvalue, wrapErr, bind, Except.bind, pure,
    Except.pure]

/-- One reading and writing back. -/
theorem reapply_allAt (hworks : Works ctl minV maxV) (hlt : minV < maxV) (val : ℤ) :
    reapply bits (ctl.allAt val) = ctl.allAt (relevel bits minV maxV val) := by
  rw [reapply, readPercent_allAt bits hworks hlt]
  simp [writePercent_eq bits (hworks.allAt val) hlt, relevel]

/-- Any number of them. -/
theorem iterate_reapply_allAt (hworks : Works ctl minV maxV) (hlt : minV < maxV) (n : ℕ) (val : ℤ) :
    (reapply bits)^[n] (ctl.allAt val) = ctl.allAt ((relevel bits minV maxV)^[n] val) := by
  induction n generalizing val with
  | zero => rfl
  | succ n ih =>
    rw [Function.iterate_succ_apply, reapply_allAt bits hworks hlt, ih,
      Function.iterate_succ_apply]

/-- The value stays in the range. -/
theorem iterate_relevel_mem (hfits : Fits bits minV maxV) {val : ℤ}
    (hval : minV ≤ val ∧ val ≤ maxV) (n : ℕ) :
    minV ≤ (relevel bits minV maxV)^[n] val ∧ (relevel bits minV maxV)^[n] val ≤ maxV := by
  cases n with
  | zero => exact hval
  | succ n =>
    rw [Function.iterate_succ_apply']
    exact valueOf_mem bits hfits _

end Answers

/-! ## The level over any number of saves -/

variable {ctl : Ctl} {minV maxV : ℤ}

/-- **A level that is shown and applied again does not rise.** Writing a percentage
gives every channel one value of the range, which grows with the percentage from
the lower end to the upper one. Applied again any number of times the value never
rises and never leaves the range; it never moves if and only if it is a whole
number of percent of the range. -/
theorem writePercent_reapplied (hfits : Fits bits minV maxV) (hworks : Works ctl minV maxV) :
    (∀ pct, writePercent bits ctl pct = (ctl.allAt (valueOf bits minV maxV pct), .ok ())) ∧
      (∀ pct, minV ≤ valueOf bits minV maxV pct ∧ valueOf bits minV maxV pct ≤ maxV) ∧
      (∀ pct pct', pct ≤ pct' → valueOf bits minV maxV pct ≤ valueOf bits minV maxV pct') ∧
      valueOf bits minV maxV 0 = minV ∧ valueOf bits minV maxV 100 = maxV ∧
      ∀ pct, ∃ level : ℕ → ℤ,
        (∀ n, (reapply bits)^[n] (writePercent bits ctl pct).1 = ctl.allAt (level n)) ∧
        level 0 = valueOf bits minV maxV pct ∧
        (∀ n, minV ≤ level n ∧ level n ≤ maxV) ∧ (∀ n, level (n + 1) ≤ level n) ∧
        ((∀ n, level n = level 0) ↔
          maxV - minV ∣ 100 * (valueOf bits minV maxV pct - minV)) := by
  refine ⟨writePercent_eq bits hworks hfits.lt, valueOf_mem bits hfits,
    fun _ _ => valueOf_mono bits hfits, valueOf_zero bits hfits, valueOf_hundred bits hfits,
    fun pct => ?_⟩
  have hmem := valueOf_mem bits hfits pct
  have hlevels := iterate_relevel_mem bits hfits hmem
  refine ⟨fun n => (relevel bits minV maxV)^[n] (valueOf bits minV maxV pct), fun n => ?_, rfl,
    hlevels, ?_, ?_⟩
  · rw [writePercent_eq bits hworks hfits.lt, iterate_reapply_allAt bits hworks hfits.lt]
  · intro n
    dsimp only
    rw [Function.iterate_succ_apply']
    exact relevel_le bits hfits (hlevels n)
  · rw [← relevel_eq_self_iff bits hfits hmem]
    constructor
    · intro hall
      exact hall 1
    · intro hfix n
      exact Function.iterate_fixed hfix n

/-- A control with two channels and `n` steps. -/
def steps (n : ℤ) : Ctl where
  rangeMin := .ok 0
  rangeMax := .ok n
  values := [19, 19]
  readErr := fun _ => none
  writeErr := fun _ => none

theorem writePercent_reapplied_half :
    (writePercent 31 (steps 38) 50).1.values = [19, 19] ∧
      ∀ n, (reapply 31)^[n] (writePercent 31 (steps 38) 50).1
        = (writePercent 31 (steps 38) 50).1 := by
  have hfits : Fits 31 0 38 := ⟨⟨by decide, by decide⟩, ⟨by decide, by decide⟩, by decide,
    ⟨by decide, by decide⟩⟩
  have hworks : Works (steps 38) 0 38 := ⟨rfl, rfl, rfl, fun _ => rfl, by decide⟩
  obtain ⟨-, -, -, -, -, hlevels⟩ := writePercent_reapplied 31 hfits hworks
  obtain ⟨level, hrun, -, -, -, hstays⟩ := hlevels 50
  have hstill := hstays.mpr (by decide)
  refine ⟨by decide, fun n => ?_⟩
  have hzero := hrun 0
  rw [hrun n, hstill n]
  exact hzero.symm

/-- Half of 31 steps is 15, which is shown as 48 percent, which is 14. -/
theorem writePercent_drifts :
    ¬ ∀ (bits : ℕ) (ctl : Ctl) (minV maxV pct : ℤ), Fits bits minV maxV → Works ctl minV maxV →
      ∀ n, (reapply bits)^[n] (writePercent bits ctl pct).1 = (writePercent bits ctl pct).1 := by
  intro hall
  have hfits : Fits 31 0 31 := ⟨⟨by decide, by decide⟩, ⟨by decide, by decide⟩, by decide,
    ⟨by decide, by decide⟩⟩
  have hworks : Works (steps 31) 0 31 := ⟨rfl, rfl, rfl, fun _ => rfl, by decide⟩
  have hsame := congrArg Ctl.values (hall 31 (steps 31) 0 31 50 hfits hworks 1)
  exact absurd hsame (by decide)

end Alsa

end OpenManet
