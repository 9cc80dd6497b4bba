import OpenManet.Lib.Fallible
/-!
# Both ends of a program

`Meets m s Q E` says how a program ends, well as `Q` says or with an error
as `E` says. It is computed along the program, like `Leaves`, and unlike it
speaks of what a failure leaves behind.
-/

namespace OpenManet

namespace Fallible

variable {ε ε' σ α β : Type}

/-- Where the program ends well its answer and state are as asked, and where
it fails its error and state are. -/
def Meets (m : EStateM ε σ α) (s : σ) (Q : α → σ → Prop) (E : ε → σ → Prop) : Prop :=
  match m s with
  | .ok a t => Q a t
  | .error e t => E e t

section Meets

variable {m : EStateM ε σ α} {s t : σ} {Q Q' : α → σ → Prop} {E E' : ε → σ → Prop}

theorem meets_of_ok {a : α} (h : m s = .ok a t) : Meets m s Q E ↔ Q a t := by simp [Meets, h]

theorem meets_of_error {e : ε} (h : m s = .error e t) : Meets m s Q E ↔ E e t := by
  simp [Meets, h]

theorem Meets.mono (h : Meets m s Q E) (hQ : ∀ a t, Q a t → Q' a t) (hE : ∀ e t, E e t → E' e t) :
    Meets m s Q' E' := by
  unfold Meets at *
  cases hm : m s with
  | ok a t =>
      rw [hm] at h
      exact hQ a t h
  | error e t =>
      rw [hm] at h
      exact hE e t h

/-- **A program is followed one command at a time**, and fails where its
first failing command does. -/
theorem meets_bind {f : α → EStateM ε σ β} {R : β → σ → Prop} :
    Meets (m >>= f) s R E ↔ Meets m s (fun a t => Meets (f a) t R E) E := by
  cases hm : m s with
  | ok a t =>
      rw [meets_of_ok hm]
      unfold Meets
      rw [bind_of_ok hm]
  | error e t => rw [meets_of_error (bind_of_error hm), meets_of_error hm]

theorem Meets.bind {f : α → EStateM ε σ β} {R : β → σ → Prop} (hm : Meets m s Q E)
    (hf : ∀ a t, Q a t → Meets (f a) t R E) : Meets (m >>= f) s R E :=
  meets_bind.2 (hm.mono hf fun _ _ h => h)

/-- What follows a command that fails is not run. -/
theorem Meets.bind_error {f : α → EStateM ε σ β} {R : β → σ → Prop}
    (hm : Meets m s (fun _ _ => False) E) : Meets (m >>= f) s R E :=
  hm.bind fun _ _ hno => hno.elim

/-- A failure that is handled ends as its handler does. -/
theorem meets_caught {handler : ε → EStateM ε' σ α} {E' : ε' → σ → Prop} :
    Meets (caught handler m) s Q E' ↔ Meets m s Q fun e t => Meets (handler e) t Q E' := by
  cases hm : m s with
  | ok a t => rw [meets_of_ok (caught_of_ok hm), meets_of_ok hm]
  | error e t =>
      rw [meets_of_error hm]
      unfold Meets
      rw [caught_of_error hm]

theorem meets_wrapped {g : ε → ε} :
    Meets (wrapped g m) s Q E ↔ Meets m s Q fun e t => E (g e) t := by
  unfold Meets wrapped
  cases hm : m s <;> rfl

theorem meets_onlyIf {c : Prop} [Decidable c] {m : EStateM ε σ Unit} {Q : Unit → σ → Prop}
    (hm : c → Meets m s Q E) (hskip : ¬ c → Q () s) : Meets (onlyIf c m) s Q E := by
  unfold onlyIf
  split
  · exact hm (by assumption)
  · exact hskip (by assumption)

end Meets

end Fallible

end OpenManet
