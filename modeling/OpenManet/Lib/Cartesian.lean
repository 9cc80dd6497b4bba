import Mathlib.Order.Lattice
import Mathlib.Data.List.Basic
import Mathlib.Data.Nat.Notation
/-!
# The tree of the first minima

The first least element of a list is the root of its tree, and what is before
and after it has trees of its own below. Above an element are those that are
met, walking away from it, as less than all met so far, and to the left also as
equal to the least: so its depth is read off the list without the tree.
-/

namespace OpenManet

namespace Cartesian

variable {α : Type*}

/-- The records of a walk: the elements that beat the last record. -/
def records (beats : α → α → Prop) [DecidableRel beats] : α → List α → ℕ
  | _, [] => 0
  | best, a :: l =>
    if beats a best then records beats a l + 1 else records beats best l

section Records

variable {beats : α → α → Prop} [DecidableRel beats] {best r : α} {l walk : List α}

theorem records_le_length (beats : α → α → Prop) [DecidableRel beats] (best : α) (l : List α) :
    records beats best l ≤ l.length := by
  induction l generalizing best with
  | nil => exact Nat.zero_le _
  | cons a l ih =>
      have hbeaten := ih a
      have hkept := ih best
      rw [records, List.length_cons]
      split <;> omega

theorem records_eq_zero (h : ∀ a ∈ l, ¬beats a best) : records beats best l = 0 := by
  induction l with
  | nil => rfl
  | cons a l ih =>
      obtain ⟨ha, hl⟩ := List.forall_mem_cons.1 h
      rw [records, if_neg ha, ih hl]

/-- A last record, which beats all before it. -/
theorem records_append (hbest : beats r best) (hwalk : ∀ a ∈ walk, beats r a)
    (hl : ∀ a ∈ l, ¬beats a r) :
    records beats best (walk ++ r :: l) = records beats best walk + 1 := by
  induction walk generalizing best with
  | nil => simp only [List.nil_append, records, if_pos hbest, records_eq_zero hl]
  | cons a walk ih =>
      obtain ⟨ha, hwalk⟩ := List.forall_mem_cons.1 hwalk
      rw [List.cons_append, records, records]
      split
      · rw [ih ha hwalk]
      · exact ih hbest hwalk

end Records

/-! ## Depths -/

variable [LinearOrder α] {before after : List α} {a r : α} {n : ℕ}

/-- How many elements are above one of a list. -/
def depth (before : List α) (a : α) (after : List α) : ℕ :=
  records (· ≤ ·) a before.reverse + records (· < ·) a after

/-- No element of the list is as deep. -/
def Shallow (n : ℕ) (l : List α) : Prop :=
  ∀ before a after, l = before ++ a :: after → depth before a after < n

/-- The first least element. -/
structure Root (before : List α) (r : α) (after : List α) : Prop where
  lt : ∀ a ∈ before, r < a
  le : ∀ a ∈ after, r ≤ a

theorem exists_root {l : List α} (h : l ≠ []) :
    ∃ before r after, l = before ++ r :: after ∧ Root before r after := by
  induction l with
  | nil => exact absurd rfl h
  | cons a l ih =>
      by_cases hl : l = []
      · exact ⟨[], a, [], by rw [hl, List.nil_append],
          ⟨fun _ h => absurd h List.not_mem_nil, fun _ h => absurd h List.not_mem_nil⟩⟩
      · obtain ⟨before, r, after, rfl, hlt, hle⟩ := ih hl
        by_cases ha : a ≤ r
        · refine ⟨[], a, before ++ r :: after, rfl, fun _ h => absurd h List.not_mem_nil, ?_⟩
          intro b hb
          rcases List.mem_append.1 hb with hb | hb
          · exact ha.trans (hlt b hb).le
          · exact ha.trans (List.forall_mem_cons.2 ⟨le_rfl, hle⟩ b hb)
        · exact ⟨a :: before, r, after, rfl, List.forall_mem_cons.2 ⟨not_le.1 ha, hlt⟩, hle⟩

namespace Root

variable {bs cs : List α}

theorem depth_eq_zero (h : Root bs r cs) : depth bs r cs = 0 := by
  have hbs : records (· ≤ ·) r bs.reverse = 0 :=
    records_eq_zero fun a ha => not_le.2 (h.lt a (List.mem_reverse.1 ha))
  have hcs : records (· < ·) r cs = 0 := records_eq_zero fun a ha => not_lt.2 (h.le a ha)
  rw [depth, hbs, hcs]

/-- Before the root: the root itself is above, and nothing behind it. -/
theorem depth_before (h : Root (before ++ a :: after) r cs) :
    depth before a (after ++ r :: cs) = depth before a after + 1 := by
  have ha : r < a := h.lt a (List.mem_append_right _ List.mem_cons_self)
  have hafter : ∀ b ∈ after, r < b := fun b hb =>
    h.lt b (List.mem_append_right _ (List.mem_cons_of_mem _ hb))
  have hcs : ∀ b ∈ cs, ¬b < r := fun b hb => not_lt.2 (h.le b hb)
  rw [depth, depth, records_append ha hafter hcs, Nat.add_assoc]

theorem depth_after (h : Root bs r (before ++ a :: after)) :
    depth (bs ++ r :: before) a after = depth before a after + 1 := by
  have ha : r ≤ a := h.le a (List.mem_append_right _ List.mem_cons_self)
  have hbefore : ∀ b ∈ before.reverse, r ≤ b := fun b hb =>
    h.le b (List.mem_append_left _ (List.mem_reverse.1 hb))
  have hbs : ∀ b ∈ bs.reverse, ¬b ≤ r := fun b hb => not_le.2 (h.lt b (List.mem_reverse.1 hb))
  have hreverse : (bs ++ r :: before).reverse = before.reverse ++ r :: bs.reverse := by simp
  rw [depth, depth, hreverse, records_append ha hbefore hbs, Nat.add_right_comm]

/-- **Below the root there is one level less.** -/
theorem shallow_succ_iff (h : Root bs r cs) :
    Shallow (n + 1) (bs ++ r :: cs) ↔ Shallow n bs ∧ Shallow n cs := by
  constructor
  · intro hshallow
    constructor
    · rintro before a after rfl
      have hdepth := hshallow before a (after ++ r :: cs) (by simp)
      rw [h.depth_before] at hdepth
      omega
    · rintro before a after rfl
      have hdepth := hshallow (bs ++ r :: before) a after (by simp)
      rw [h.depth_after] at hdepth
      omega
  · rintro ⟨hbs, hcs⟩ before a after heq
    rcases List.append_eq_append_iff.1 heq with ⟨mid, rfl, hmid⟩ | ⟨mid, rfl, hmid⟩
    · cases mid with
      | nil =>
          obtain ⟨rfl, rfl⟩ := List.cons_eq_cons.1 hmid
          rw [List.append_nil, h.depth_eq_zero]
          omega
      | cons b mid =>
          obtain ⟨rfl, rfl⟩ := List.cons_eq_cons.1 hmid
          have hdepth := hcs mid a after rfl
          rw [h.depth_after]
          omega
    · cases mid with
      | nil =>
          obtain ⟨rfl, rfl⟩ := List.cons_eq_cons.1 hmid
          rw [List.append_nil] at h
          rw [h.depth_eq_zero]
          omega
      | cons b mid =>
          rw [List.cons_append] at hmid
          obtain ⟨rfl, rfl⟩ := List.cons_eq_cons.1 hmid
          have hdepth := hbs before a mid rfl
          rw [h.depth_before]
          omega

end Root

theorem shallow_nil (n : ℕ) : Shallow n ([] : List α) := by
  intro before a after h
  exact absurd h.symm (List.append_ne_nil_of_right_ne_nil before (List.cons_ne_nil a after))

@[simp] theorem shallow_zero_iff {l : List α} : Shallow 0 l ↔ l = [] := by
  constructor
  · intro h
    cases l with
    | nil => rfl
    | cons a l => exact absurd (h [] a l rfl) (Nat.not_lt_zero _)
  · rintro rfl
    exact shallow_nil 0

theorem shallow_of_length_le {l : List α} (h : l.length ≤ n) : Shallow n l := by
  rintro before a after rfl
  have hbefore := records_le_length (· ≤ ·) a before.reverse
  have hafter := records_le_length (· < ·) a after
  rw [List.length_reverse] at hbefore
  rw [List.length_append, List.length_cons] at h
  rw [depth]
  omega

end Cartesian

end OpenManet
