import Mathlib.Data.List.Sort
import Mathlib.Order.Basic
/-!
# Sorting by a comparison

What `sort.Slice` promises: the elements it is given, each as often as before,
and, where the comparison is a strict weak order, none before one that is
less. Which of two equal elements comes first is left open.

A comparison of keys in a linear order is a strict weak order.
-/

namespace OpenManet

/-- What `sort.Slice` asks of a comparison. -/
structure StrictWeak {α : Type} (less : α → α → Bool) : Prop where
  irrefl : ∀ a, less a a = false
  trans : ∀ {a b c}, less a b = true → less b c = true → less a c = true
  not_trans : ∀ {a b c}, less a b = false → less b c = false → less a c = false

namespace StrictWeak

variable {α κ : Type} {less : α → α → Bool}

theorem of_key [LinearOrder κ] (key : α → κ) (h : ∀ a b, less a b = true ↔ key a < key b) :
    StrictWeak less := by
  have hnot : ∀ a b, less a b = false ↔ key b ≤ key a := by
    intro a b
    rw [← not_lt, ← h, Bool.not_eq_true]
  refine ⟨fun a => (hnot a a).2 le_rfl, fun {a b c} hab hbc => ?_, fun {a b c} hab hbc => ?_⟩
  · rw [h] at hab hbc ⊢
    exact hab.trans hbc
  · rw [hnot] at hab hbc ⊢
    exact hbc.trans hab

theorem asymm (h : StrictWeak less) {a b : α} (hab : less a b = true) : less b a = false := by
  by_contra hba
  have hloop := h.trans hab (Bool.not_eq_false _ ▸ hba)
  rw [h.irrefl] at hloop
  cases hloop

end StrictWeak

/-- `sort.Slice`. -/
structure SliceSort where
  sort : {α : Type} → (α → α → Bool) → List α → List α
  perm : ∀ {α : Type} (less : α → α → Bool) (l : List α), (sort less l).Perm l
  sorted : ∀ {α : Type} {less : α → α → Bool} (l : List α), StrictWeak less →
    (sort less l).Pairwise fun a b => less b a = false

/-- An insertion sort does it. -/
def SliceSort.insertion : SliceSort where
  sort less l := l.insertionSort fun a b => less b a = false
  perm _ l := List.perm_insertionSort _ l
  sorted {α less} l h := by
    have : Std.Total fun a b => less b a = false := ⟨fun a b => by
      by_cases hab : less a b = true
      · exact .inl (h.asymm hab)
      · exact .inr (Bool.not_eq_true _ ▸ hab)⟩
    have : IsTrans α fun a b => less b a = false := ⟨fun a b c hab hbc => h.not_trans hbc hab⟩
    exact List.pairwise_insertionSort _ l

end OpenManet
