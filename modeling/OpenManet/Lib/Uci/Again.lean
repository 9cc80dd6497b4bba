import OpenManet.Lib.Uci.Alike
/-!
# Asking again

`Sure m h Q` follows a program that fails only where the world refuses a call:
where it ends well, it does so that `Q`. `Repeats same m t a` says that of a
program asked again of the tree `t`: it gives `a`, and leaves the tree the same.
-/

namespace OpenManet

namespace Uci

open Fallible

variable {α β : Type} {h : Host} {config ref option type : String}

/-- The program ends well, and so that `Q`, or a call was refused. -/
def Sure (m : Prog α) (h : Host) (Q : α → Host → Prop) : Prop :=
  match m h with
  | .ok a h' => Q a h' ∧ h'.fate = h.fate
  | .error _ _ => ¬ h.fate.Smooth

section Sure

variable {m : Prog α} {k : α → Prog β} {Q Q' : α → Host → Prop}

theorem Sure.mono (hm : Sure m h Q) (hQ : ∀ a h', Q a h' → Q' a h') : Sure m h Q' := by
  unfold Sure at *
  cases hrun : m h with
  | ok a h' =>
      rw [hrun] at hm
      exact ⟨hQ a h' hm.1, hm.2⟩
  | error e h' =>
      rw [hrun] at hm
      exact hm

theorem Sure.leaves (hm : Sure m h Q) : Leaves m h Q := by
  intro a h' hrun
  unfold Sure at hm
  rw [hrun] at hm
  exact hm.1

/-- Where nothing is refused, the program ends well. -/
theorem Sure.ok (hm : Sure m h Q) (hsmooth : h.fate.Smooth) : ∃ a h', m h = .ok a h' ∧ Q a h' := by
  unfold Sure at hm
  cases hrun : m h with
  | ok a h' =>
      rw [hrun] at hm
      exact ⟨a, h', rfl, hm.1⟩
  | error e h' =>
      rw [hrun] at hm
      exact absurd hsmooth hm

/-- What the program can do at all, it does where it ends well. -/
theorem Sure.within {B : Bound Host} (hm : Sure m h Q) (hB : Within B m) :
    Sure m h fun a h' => Q a h' ∧ B.rel h h' := by
  unfold Sure at *
  cases hrun : m h with
  | ok a h' =>
      rw [hrun] at hm
      exact ⟨⟨hm.1, hB.ok hrun⟩, hm.2⟩
  | error e h' =>
      rw [hrun] at hm
      exact hm

theorem sure_pure {a : α} (hQ : Q a h) : Sure (pure a) h Q := ⟨hQ, rfl⟩

theorem Sure.bind {R : β → Host → Prop} (hm : Sure m h Q) (hk : ∀ a h', Q a h' → Sure (k a) h' R) :
    Sure (m >>= k) h R := by
  unfold Sure at hm
  cases hrun : m h with
  | error e h' =>
      rw [hrun] at hm
      unfold Sure
      rw [bind_of_error hrun]
      exact hm
  | ok a h' =>
      rw [hrun] at hm
      obtain ⟨hq, hfate⟩ := hm
      have hnext := hk a h' hq
      unfold Sure at hnext ⊢
      rw [bind_of_ok hrun, ← hfate]
      exact hnext

theorem sure_tree_bind {f : Tree → Prog β} {R : β → Host → Prop} (hf : Sure (f h.tree) h R) :
    Sure (tree >>= f) h R := hf

theorem Sure.saying {what : String} (hm : Sure m h Q) : Sure (saying what m) h Q := by
  unfold Sure Uci.saying wrapped at *
  cases hrun : m h with
  | ok a h' => simpa [hrun] using hm
  | error e h' => simpa [hrun] using hm

/-- A call the tree answers. -/
theorem sure_call {g : Tree → Except Err (α × Tree)} {a : α} {t : Tree}
    (hg : g h.tree = .ok (a, t)) (hQ : ∀ tick, Q a { h with tree := t, tick := tick }) :
    Sure (call g) h Q := by
  unfold Sure call
  dsimp only
  cases hrefuse : h.fate.refuses h.tick with
  | true => exact fun hsmooth => by simp [hsmooth h.tick] at hrefuse
  | false =>
      simp only [Bool.false_eq_true, if_false, hg]
      exact ⟨hQ _, trivial⟩

theorem sure_getSections {c : Config} (hmem : h.tree.mem config = some c) :
    Sure (getSections config type) h fun l h' => l = c.refs type ∧ h'.tree = h.tree :=
  sure_call (a := c.refs type) (t := h.tree) (by simp [hmem]) fun _ => ⟨rfl, rfl⟩

theorem sure_editSection {c : Config} {f : Table (List String) → Table (List String)}
    (hmem : h.tree.mem config = some c) (hfind : (c.find ref).isSome = true) :
    Sure (editSection config ref f) h fun _ h' => h'.tree = h.tree.stage config (c.update ref f) :=
  sure_call (a := ()) (t := h.tree.stage config (c.update ref f)) (by simp [hmem, hfind])
    fun _ => rfl

end Sure

/-- Asked again, the program gives the same answer and leaves the tree the
same; nothing but the world keeps it from doing so. -/
def Repeats (same : Tree → Tree → Prop) (m : Prog α) (t : Tree) (a : α) : Prop :=
  ∀ h, h.tree = t → Sure m h fun b h' => b = a ∧ same t h'.tree

/-- The trees say the same: every config reads the same in memory, the files
are the same, and the same configs have edits pending. -/
def Tree.Alike (t t' : Tree) : Prop :=
  (∀ config, Option.Rel Config.Alike (t.mem config) (t'.mem config)) ∧ t'.disk = t.disk ∧
    t'.dirty = t.dirty

/-- One config says the same, and the others were not touched. -/
theorem Tree.alike_of_edits {h' : Host} {born : List String} {c c' : Config}
    (hedits : (Edits [config] born).rel h h') (hmem : h.tree.mem config = some c)
    (hmem' : h'.tree.mem config = some c') (halike : c.Alike c')
    (hdirty : h.tree.dirty config = true) : h.tree.Alike h'.tree := by
  obtain ⟨hdisk, hkeep, hstays, -, -⟩ := hedits
  refine ⟨fun other => ?_, hdisk, funext fun other => ?_⟩
  · rcases eq_or_ne other config with rfl | hne
    · rw [hmem, hmem']
      exact .some halike
    · rw [(hkeep other (by simpa using hne)).1]
      cases h.tree.mem other with
      | none => exact .none
      | some d => exact .some .rfl
  · rcases eq_or_ne other config with rfl | hne
    · rw [hdirty, hstays other hdirty]
    · exact (hkeep other (by simpa using hne)).2

end Uci

end OpenManet
