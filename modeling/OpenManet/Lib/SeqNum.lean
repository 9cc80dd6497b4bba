import Mathlib.Data.Nat.ModEq
import Mathlib.Tactic.Ring
import Mathlib.Algebra.Order.Ring.Int
/-!
# Serial-number arithmetic

Sequence numbers of `w` bits, read on a circle. `dist a b` is the number of
steps forward from `b` to `a`; a number is *at or ahead* of a cursor when
the signed difference is not negative, which is to say when the distance is
less than half the circle. That relation is not transitive, and nothing
below treats it as an order: what a consumer moving one step at a time
keeps is the distance, which falls by one at every step it has not reached
the number yet.
-/

namespace OpenManet

namespace SeqNum

variable {w : ℕ}

/-- Steps forward from `b` to `a`. -/
def dist (a b : BitVec w) : ℕ := (a - b).toNat

theorem dist_lt (a b : BitVec w) : dist a b < 2 ^ w := (a - b).isLt

@[simp] theorem dist_self (a : BitVec w) : dist a a = 0 := by simp [dist]

theorem dist_eq_zero {a b : BitVec w} : dist a b = 0 ↔ a = b := by
  constructor
  · intro h
    have h0 : a - b = 0#w := BitVec.eq_of_toNat_eq (by simpa [dist] using h)
    have h1 : a - b + b = b := by rw [h0, BitVec.zero_add]
    rwa [BitVec.sub_add_cancel] at h1
  · rintro rfl
    exact dist_self a

/-- Walking the distance from the cursor reaches the number. -/
theorem add_dist (a b : BitVec w) : b + BitVec.ofNat w (dist a b) = a := by
  rw [dist, BitVec.ofNat_toNat, BitVec.setWidth_eq, BitVec.add_comm, BitVec.sub_add_cancel]

/-- A number `n` steps forward is at distance `n`, up to the wrap. -/
theorem dist_add (b : BitVec w) (n : ℕ) : dist (b + BitVec.ofNat w n) b = n % 2 ^ w := by
  have h : b + BitVec.ofNat w n - b = BitVec.ofNat w n := by
    rw [BitVec.add_comm, BitVec.add_sub_cancel]
  rw [dist, h, BitVec.toNat_ofNat]

theorem dist_add_of_lt (b : BitVec w) {n : ℕ} (h : n < 2 ^ w) :
    dist (b + BitVec.ofNat w n) b = n := by
  rw [dist_add, Nat.mod_eq_of_lt h]

/-- **One step of the cursor.** A number the cursor is not at comes one
step nearer. -/
theorem dist_succ {a b : BitVec w} (h : a ≠ b) : dist a (b + 1#w) + 1 = dist a b := by
  have hpos : dist a b ≠ 0 := fun h0 => h (dist_eq_zero.1 h0)
  have hlt := dist_lt a b
  have ha : a = b + BitVec.ofNat w (dist a b) := (add_dist a b).symm
  have hstep : a = (b + 1#w) + BitVec.ofNat w (dist a b - 1) := by
    have hsplit : BitVec.ofNat w (dist a b) = 1#w + BitVec.ofNat w (dist a b - 1) := by
      rw [← BitVec.ofNat_add]
      congr 1
      omega
    rw [BitVec.add_assoc, ← hsplit]
    exact ha
  have hd : dist a (b + 1#w) = dist a b - 1 := by
    conv_lhs => rw [hstep]
    exact dist_add_of_lt _ (by omega)
  omega

/-- A number shifted with its cursor keeps its distance. -/
theorem dist_add_add (a b : BitVec w) (c : BitVec w) : dist (a + c) (b + c) = dist a b := by
  unfold dist
  congr 1
  rw [BitVec.sub_eq_add_neg, BitVec.sub_eq_add_neg, BitVec.neg_add, BitVec.sub_eq_add_neg,
    BitVec.add_assoc, ← BitVec.add_assoc c, BitVec.add_comm c, BitVec.add_assoc,
    ← BitVec.sub_eq_add_neg c, BitVec.sub_self, BitVec.add_zero]

/-- The signed difference is not negative exactly on the near half of the
circle. -/
theorem toInt_sub_nonneg {a b : BitVec w} : 0 ≤ (a - b).toInt ↔ 2 * dist a b < 2 ^ w := by
  rw [dist, BitVec.toInt_pos_iff]

/-! ## Slots of a ring

A ring of `d` slots keeps the number `a` in slot `a mod d`. Where `d`
divides the circle the mapping is continuous across the wrap. -/

/-- The slot of a number. -/
def slot (d : ℕ) (a : BitVec w) : ℕ := a.toNat % d

theorem slot_lt {d : ℕ} (hd : 0 < d) (a : BitVec w) : slot d a < d := Nat.mod_lt _ hd

/-- **The mapping survives the wrap**: the slot `n` steps on is `n` slots
on. -/
theorem slot_add {d : ℕ} (hd : d ∣ 2 ^ w) (b : BitVec w) (n : ℕ) :
    slot d (b + BitVec.ofNat w n) = (slot d b + n) % d := by
  simp only [slot, BitVec.toNat_add, BitVec.toNat_ofNat, Nat.add_mod_mod]
  rw [Nat.mod_mod_of_dvd _ hd, Nat.mod_add_mod]

end SeqNum

end OpenManet
