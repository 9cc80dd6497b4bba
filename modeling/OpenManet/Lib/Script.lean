import OpenManet.Lib.Fallible
/-!
# Programs made of tasks

A program that does one fallible task after another, and gives up at the
first that fails, keeps a log of the tasks it has tried. Where it ends well
it has tried them all; where it fails it has tried the first of them, the
last of these in vain.
-/

namespace OpenManet

namespace Fallible

variable {ε σ ω α β γ : Type}

/-- A task, logged whichever way it ends. -/
def tried (task : ω) (m : EStateM ε σ α) : EStateM ε (σ × List ω) α := fun s =>
  match m s.1 with
  | .ok a t => .ok a (t, s.2 ++ [task])
  | .error e t => .error e (t, s.2 ++ [task])

/-- The program has these tasks. -/
def Tasks (m : EStateM ε (σ × List ω) α) (tasks : List ω) : Prop :=
  ∀ s, match m s with
    | .ok _ t => t.2 = s.2 ++ tasks
    | .error _ t => ∃ first, first ≠ [] ∧ first <+: tasks ∧ t.2 = s.2 ++ first

section Tasks

variable {m : EStateM ε (σ × List ω) α} {f : α → EStateM ε (σ × List ω) β} {tasks more : List ω}
  {s t : σ × List ω} {a : α} {e : ε}

theorem Tasks.ok (hm : Tasks m tasks) (h : m s = .ok a t) : t.2 = s.2 ++ tasks := by
  simpa [h] using hm s

theorem Tasks.error (hm : Tasks m tasks) (h : m s = .error e t) :
    ∃ first, first ≠ [] ∧ first <+: tasks ∧ t.2 = s.2 ++ first := by
  simpa [h] using hm s

theorem tasks_pure (a : α) : Tasks (pure a : EStateM ε (σ × List ω) α) [] := fun s =>
  (List.append_nil s.2).symm

theorem tasks_tried (task : ω) (m : EStateM ε σ α) : Tasks (tried task m) [task] := by
  intro s
  unfold tried
  cases m s.1 with
  | ok a t => rfl
  | error e t => exact ⟨[task], List.cons_ne_nil _ _, List.prefix_refl _, rfl⟩

/-- One program after another. -/
theorem Tasks.bind (hm : Tasks m tasks) (hf : ∀ a, Tasks (f a) more) :
    Tasks (m >>= f) (tasks ++ more) := by
  intro s
  cases hfirst : m s with
  | error e t =>
      obtain ⟨first, hne, hprefix, hlog⟩ := hm.error hfirst
      rw [bind_of_error hfirst]
      exact ⟨first, hne, hprefix.trans (List.prefix_append _ _), hlog⟩
  | ok a t =>
      rw [bind_of_ok hfirst]
      have hlog := hm.ok hfirst
      cases hsecond : f a t with
      | ok b u =>
          show u.2 = s.2 ++ (tasks ++ more)
          rw [(hf a).ok hsecond, hlog, List.append_assoc]
      | error e u =>
          obtain ⟨first, hne, hprefix, hlog'⟩ := (hf a).error hsecond
          refine ⟨tasks ++ first, by simp [hne], (List.prefix_append_right_inj tasks).2 hprefix, ?_⟩
          rw [hlog', hlog, List.append_assoc]

/-- **A loop tries its tasks in its own order.** -/
theorem tasks_forM (task : γ → ω) (m : γ → EStateM ε σ Unit) (l : List γ) :
    Tasks (l.forM fun x => tried (task x) (m x)) (l.map task) := by
  induction l with
  | nil => exact tasks_pure ()
  | cons x l ih => exact (tasks_tried (task x) (m x)).bind fun _ => ih

end Tasks

end Fallible

end OpenManet
