import Mathlib.Data.Fintype.Card
import Mathlib.Data.Fintype.Basic
import Mathlib.Order.Basic
/-!
# Yielding by rank

Parties hold values and are told apart by a key. In a round every party that
shares its value with one of a lower key yields, all at once and all from the
same picture, and those that yield go to a value nobody holds. They may well
go to the same one: what makes the rounds end is that the lowest of those who
yield has nobody left to yield to.
-/

namespace OpenManet

variable {ι α κ : Type*} [LinearOrder κ] (key : ι → κ)

/-- A party shares its value with one of a lower key. -/
def Yields (a : ι → α) (i : ι) : Prop := ∃ j, a j = a i ∧ key j < key i

/-- One round: those that yield go to one value nobody held, the others
stay. -/
def YieldStep (a a' : ι → α) : Prop :=
  ∃ fresh, (∀ i, a i ≠ fresh) ∧
    ∀ i, (Yields key a i → a' i = fresh) ∧ (¬Yields key a i → a' i = a i)

variable {key} {a a' : ι → α}

theorem YieldStep.eq_iff (h : YieldStep key a a') (i : ι) : a' i = a i ↔ ¬Yields key a i := by
  obtain ⟨fresh, hfresh, hstep⟩ := h
  refine ⟨fun heq hyields => ?_, (hstep i).2⟩
  exact hfresh i (heq.symm.trans ((hstep i).1 hyields))

theorem YieldStep.ne (h : YieldStep key a a') {i : ι} (hi : Yields key a i) (j : ι) :
    a' i ≠ a j := by
  obtain ⟨fresh, hfresh, hstep⟩ := h
  rw [(hstep i).1 hi]
  exact (hfresh j).symm

/-- Who yields after a round yielded in it, and so did one of a lower key. -/
theorem YieldStep.yields (h : YieldStep key a a') {i : ι} (hi : Yields key a' i) :
    ∃ j, Yields key a j ∧ key j < key i := by
  obtain ⟨fresh, hfresh, hstep⟩ := h
  obtain ⟨j, hshare, hlow⟩ := hi
  refine ⟨j, ?_, hlow⟩
  by_contra hj
  rw [(hstep j).2 hj] at hshare
  by_cases hyields : Yields key a i
  · -- the one that stayed would be where nobody was
    exact hfresh j (hshare.trans ((hstep i).1 hyields))
  · rw [(hstep i).2 hyields] at hshare
    exact hyields ⟨j, hshare, hlow⟩

theorem injective_of_not_yields (hkey : Function.Injective key) (h : ∀ i, ¬Yields key a i) :
    Function.Injective a := by
  intro i j hshare
  by_contra hne
  rcases lt_or_gt_of_ne (fun heq => hne (hkey heq)) with hlt | hgt
  · exact h j ⟨i, hshare, hlt⟩
  · exact h i ⟨j, hshare.symm, hgt⟩

section Run

variable [Fintype ι]

/-- The parties of a lower key. -/
def under (key : ι → κ) (i : ι) : Finset ι := {j | key j < key i}

theorem card_under_lt {i j : ι} (h : key j < key i) : (under key j).card < (under key i).card := by
  refine Finset.card_lt_card ⟨fun k hk => ?_, fun hsub => ?_⟩
  · simp only [under, Finset.mem_filter_univ] at hk ⊢
    exact hk.trans h
  · have hj : j ∈ under key j := hsub (by simpa [under] using h)
    simp [under] at hj

/-- Who yields in round `k` has more than `k` parties below. -/
theorem lt_card_under {run : ℕ → ι → α} (hrun : ∀ k, YieldStep key (run k) (run (k + 1))) :
    ∀ (k : ℕ) (i : ι), Yields key (run k) i → k < (under key i).card := by
  intro k
  induction k with
  | zero =>
      rintro i ⟨j, -, hlow⟩
      exact (Nat.zero_le _).trans_lt (card_under_lt hlow)
  | succ k ih =>
      intro i hi
      obtain ⟨j, hj, hlow⟩ := (hrun k).yields hi
      exact Nat.lt_of_le_of_lt (ih j hj) (card_under_lt hlow)

/-- **Yielding ends.** After as many rounds as there are parties nobody
yields. -/
theorem not_yields_of_card_le {run : ℕ → ι → α}
    (hrun : ∀ k, YieldStep key (run k) (run (k + 1))) {k : ℕ} (hk : Fintype.card ι ≤ k) (i : ι) :
    ¬Yields key (run k) i := by
  intro hi
  have hlow := lt_card_under hrun k i hi
  have hhigh := Finset.card_le_univ (under key i)
  omega

end Run

end OpenManet
