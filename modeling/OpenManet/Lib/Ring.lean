import Mathlib.Data.Nat.ModEq
import Mathlib.Data.List.TakeDrop
import Mathlib.Logic.Function.Basic
import Mathlib.Algebra.Order.Ring.Int
/-!
# Rings and the streams they carry

A ring of `R` cells carries a stream: the element at position `j` stands in cell
`j % R`. Positions are not reduced, so the whole stream has one; the indices a
program keeps are. What a window of fewer than `R` positions holds is told apart
by the cells alone.
-/

namespace OpenManet

namespace Ring

variable {α : Type*} {R : ℕ}

/-- The cell of a position, as the index a program computes. -/
def slot (R j : ℕ) : ℤ := ((j % R : ℕ) : ℤ)

theorem slot_nonneg (R j : ℕ) : 0 ≤ slot R j := Int.natCast_nonneg _

theorem slot_lt (hR : 0 < R) (j : ℕ) : slot R j < R := Int.ofNat_lt.2 (Nat.mod_lt j hR)

/-- **Two positions of one window have two cells.** -/
theorem slot_ne {i j : ℕ} (hlt : i < j) (hwindow : j < i + R) : slot R i ≠ slot R j := by
  intro h
  have hmod : i ≡ j [MOD R] := Int.ofNat_inj.1 h
  have hdvd := (Nat.modEq_iff_dvd' hlt.le).1 hmod
  exact absurd (Nat.le_of_dvd (by omega) hdvd) (by omega)

/-- The remainder of an index that walks on from a cell. -/
theorem tmod_slot_add (R a i : ℕ) : (slot R a + i).tmod R = slot R (a + i) := by
  rw [slot, slot, ← Int.natCast_add, ← Int.ofNat_tmod, Nat.mod_add_mod]

/-- The remainder of an index that walks back from a cell, less than once
around. -/
theorem tmod_slot_back {a i : ℕ} (hi : i ≤ a) (hR : i ≤ R) :
    (slot R a - i + R).tmod R = slot R (a - i) := by
  have hslot := slot_nonneg R a
  rw [Int.tmod_eq_emod_of_nonneg (by omega), Int.add_emod_right, slot, slot, Int.natCast_mod,
    Int.natCast_mod, Int.emod_sub_emod, ← Int.natCast_sub hi]

/-- **The fill of a ring**, computed from its two indices. -/
theorem tmod_slot_sub {r w : ℕ} (hle : r ≤ w) (hlt : w < r + R) :
    (slot R w - slot R r + R).tmod R = (w - r : ℕ) := by
  have hR : 0 < R := by omega
  have hr := slot_lt hR r
  have hw := slot_nonneg R w
  rw [Int.tmod_eq_emod_of_nonneg (by omega), Int.add_emod_right, slot, slot, Int.natCast_mod,
    Int.natCast_mod, ← Int.sub_emod, ← Int.natCast_sub hle, ← Int.natCast_mod,
    Nat.mod_eq_of_lt (by omega)]

/-- From a position on, the cells hold the stream. -/
def Holds (cells : ℤ → α) (R : ℕ) (stream : List α) (start : ℕ) : Prop :=
  ∀ j, start ≤ j → ∀ a, stream[j]? = some a → cells (slot R j) = a

theorem holds_nil (cells : ℤ → α) (start : ℕ) : Holds cells R [] start := by
  intro j _ a ha
  simp at ha

namespace Holds

variable {cells : ℤ → α} {stream stream' : List α} {start start' : ℕ}

/-- Reading on keeps what is held. -/
theorem of_le (h : Holds cells R stream start) (hle : start ≤ start') :
    Holds cells R stream start' :=
  fun j hj => h j (hle.trans hj)

/-- A part of the stream is held with it. -/
theorem of_prefix (h : Holds cells R stream start) (hpart : stream' <+: stream) :
    Holds cells R stream' start := by
  obtain ⟨rest, rfl⟩ := hpart
  intro j hj a ha
  refine h j hj a ?_
  rwa [List.getElem?_append_left (List.getElem?_eq_some_iff.1 ha).1]

/-- **One more element**, while the ring has room. -/
theorem push (h : Holds cells R stream start) (a : α) (hroom : stream.length < start + R) :
    Holds (Function.update cells (slot R stream.length) a) R (stream ++ [a]) start := by
  intro j hj b hb
  rcases Nat.lt_or_ge j stream.length with hlt | hge
  · rw [List.getElem?_append_left hlt] at hb
    rw [Function.update_of_ne (slot_ne hlt (by omega)), h j hj b hb]
  · have hlen := (List.getElem?_eq_some_iff.1 hb).1
    rw [List.length_append, List.length_singleton] at hlen
    obtain rfl : j = stream.length := by omega
    rw [List.getElem?_concat_length, Option.some_inj] at hb
    rw [Function.update_self, hb]

end Holds

end Ring

end OpenManet
