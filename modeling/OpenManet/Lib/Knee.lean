import Mathlib.Algebra.Order.Group.Abs
import Mathlib.Algebra.Order.Ring.Int
import Mathlib.Tactic.Linarith
import Mathlib.Tactic.Ring
/-!
# Soft knees

A limiter on integers. Up to the knee a sample passes as it is; beyond it the
overshoot `d` is bent towards a rail at distance `r`, as `r * d / (d + r)` with
the quotient rounded down. The rails on the two sides may be at different
distances. Rounding costs nothing of what a limiter is for: the curve does not
fall, it does not leave the rails, and it does not change a sign.
-/

namespace OpenManet

namespace Knee

variable {k r q d e s t : ℤ}

/-- The overshoot, bent towards a rail at distance `r`. -/
def bend (r d : ℤ) : ℤ := r * d / (d + r)

theorem bend_nonneg (hr : 0 < r) (hd : 0 ≤ d) : 0 ≤ bend r d :=
  Int.ediv_nonneg (mul_nonneg hr.le hd) (by omega)

/-- **The rail is not reached.** -/
theorem bend_lt (hr : 0 < r) (hd : 0 ≤ d) : bend r d < r := by
  unfold bend
  rw [Int.ediv_lt_iff_lt_mul (by omega)]
  nlinarith

/-- **The bent overshoot does not fall.** Where `q` is the quotient at `d`,
`q ≤ r`, so the denominator grows by no more than the numerator does. -/
theorem bend_mono (hr : 0 < r) (hd : 0 ≤ d) (h : d ≤ e) : bend r d ≤ bend r e := by
  have hquot : bend r d * (d + r) ≤ r * d := Int.ediv_mul_le _ (by omega)
  have hlt := bend_lt hr hd
  show bend r d ≤ r * e / (e + r)
  rw [Int.le_ediv_iff_mul_le (by omega)]
  calc bend r d * (e + r) = bend r d * (d + r) + bend r d * (e - d) := by ring
    _ ≤ r * d + r * (e - d) := add_le_add hquot (mul_le_mul_of_nonneg_right hlt.le (by omega))
    _ = r * e := by ring

/-- The curve: knees at `k` and `-k`, rails `r` above the one and `q` below
the other. -/
def curve (k r q s : ℤ) : ℤ :=
  if k < s then k + bend r (s - k)
  else if s < -k then -(k + bend q (-s - k))
  else s

theorem curve_above (h : k < s) : curve k r q s = k + bend r (s - k) := if_pos h

theorem curve_below (hk : 0 ≤ k) (h : s < -k) : curve k r q s = -(k + bend q (-s - k)) := by
  rw [curve, if_neg (by omega), if_pos h]

/-- Between the knees nothing changes. -/
theorem curve_between (hlow : -k ≤ s) (hhigh : s ≤ k) : curve k r q s = s := by
  rw [curve, if_neg (by omega), if_neg (by omega)]

/-- **The curve stays between the rails.** -/
theorem curve_mem (hk : 0 ≤ k) (hr : 0 < r) (hq : 0 < q) (s : ℤ) :
    -(k + q) < curve k r q s ∧ curve k r q s < k + r := by
  rcases lt_or_ge k s with habove | hle
  · have hlt := bend_lt hr (d := s - k) (by omega)
    have hnonneg := bend_nonneg hr (d := s - k) (by omega)
    rw [curve_above habove]
    omega
  rcases lt_or_ge s (-k) with hbelow | hge
  · have hlt := bend_lt hq (d := -s - k) (by omega)
    have hnonneg := bend_nonneg hq (d := -s - k) (by omega)
    rw [curve_below hk hbelow]
    omega
  · rw [curve_between hge hle]
    omega

theorem curve_nonneg (hk : 0 ≤ k) (hr : 0 < r) (hs : 0 ≤ s) : 0 ≤ curve k r q s := by
  rcases lt_or_ge k s with habove | hle
  · have hnonneg := bend_nonneg hr (d := s - k) (by omega)
    rw [curve_above habove]
    omega
  · rwa [curve_between (by omega) hle]

theorem curve_nonpos (hk : 0 ≤ k) (hq : 0 < q) (hs : s ≤ 0) : curve k r q s ≤ 0 := by
  rcases lt_or_ge s (-k) with hbelow | hge
  · have hnonneg := bend_nonneg hq (d := -s - k) (by omega)
    rw [curve_below hk hbelow]
    omega
  · rwa [curve_between hge (by omega)]

/-- **The curve does not fall.** Each side by `bend_mono`, and at a knee the
bent overshoot begins at zero. -/
theorem curve_mono (hk : 0 ≤ k) (hr : 0 < r) (hq : 0 < q) (h : s ≤ t) :
    curve k r q s ≤ curve k r q t := by
  rcases lt_or_ge k s with habove | hle
  · have hmono := bend_mono hr (d := s - k) (e := t - k) (by omega) (by omega)
    rw [curve_above habove, curve_above (by omega)]
    omega
  rcases lt_or_ge t (-k) with hbelow | hge
  · have hmono := bend_mono hq (d := -t - k) (e := -s - k) (by omega) (by omega)
    rw [curve_below hk hbelow, curve_below hk (by omega)]
    omega
  -- a knee, or the stretch between them, is in the way
  have hleft : curve k r q s ≤ min k t := by
    rcases lt_or_ge s (-k) with hs | hs
    · have hnonneg := bend_nonneg hq (d := -s - k) (by omega)
      rw [curve_below hk hs]
      omega
    · rw [curve_between hs hle]
      omega
  have hright : min k t ≤ curve k r q t := by
    rcases lt_or_ge k t with ht | ht
    · have hnonneg := bend_nonneg hr (d := t - k) (by omega)
      rw [curve_above ht]
      omega
    · rw [curve_between hge ht]
      omega
  exact hleft.trans hright

/-- A sample further out on the same side comes out no smaller. -/
theorem abs_curve_le (hk : 0 ≤ k) (hr : 0 < r) (hq : 0 < q)
    (h : 0 ≤ s ∧ s ≤ t ∨ t ≤ s ∧ s ≤ 0) : |curve k r q s| ≤ |curve k r q t| := by
  rcases h with ⟨hs, hst⟩ | ⟨hts, hs⟩
  · have hmono := curve_mono hk hr hq hst
    have hnonneg := curve_nonneg hk hr hs (q := q)
    rw [abs_of_nonneg hnonneg, abs_of_nonneg (hnonneg.trans hmono)]
    exact hmono
  · have hmono := curve_mono hk hr hq hts
    have hnonpos := curve_nonpos hk hq hs (r := r)
    rw [abs_of_nonpos hnonpos, abs_of_nonpos (hmono.trans hnonpos)]
    exact neg_le_neg hmono

end Knee

end OpenManet
