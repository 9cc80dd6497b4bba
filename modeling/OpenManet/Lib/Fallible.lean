import Mathlib.Data.List.Basic
/-!
# Fallible programs

A program that may fail keeps the state it had reached: `EStateM`. Two
notions carry the reasoning. `Within` says what a program can do to the
state whichever way it ends, as a relation that holds of doing nothing and
of doing one thing after another. `Leaves` says what holds where it ends
well, and is computed along the program, so that a symbolic run is a
rewriting.
-/

namespace OpenManet

namespace Fallible

variable {ε σ τ α β : Type}

/-- The state a program ends in, well or not. -/
def final (m : EStateM ε σ α) (s : σ) : σ :=
  match m s with
  | .ok _ t => t
  | .error _ t => t

/-- The program ends well. -/
def succeeds (m : EStateM ε σ α) (s : σ) : Bool :=
  match m s with
  | .ok _ _ => true
  | .error _ _ => false

/-- What the program answers where it ends well. -/
def answer (m : EStateM ε σ α) (s : σ) : Option α :=
  match m s with
  | .ok a _ => some a
  | .error _ _ => none

/-- A failure is passed on with a word on where it struck. -/
def wrapped (f : ε → ε) (m : EStateM ε σ α) : EStateM ε σ α := fun s =>
  match m s with
  | .ok a t => .ok a t
  | .error e t => .error (f e) t

/-- A failure is dropped. -/
def ignored (m : EStateM ε σ Unit) : EStateM ε σ Unit := fun s => .ok () (final m s)

/-- The outcome of a program as a value. -/
def attempt (m : EStateM ε σ α) : EStateM ε σ (Except ε α) := fun s =>
  match m s with
  | .ok a t => .ok (.ok a) t
  | .error e t => .ok (.error e) t

/-- A failure is handed to another program, which goes on in the state it
struck in. -/
def caught {ε' : Type} (handler : ε → EStateM ε' σ α) (m : EStateM ε σ α) : EStateM ε' σ α :=
  fun s =>
    match m s with
    | .ok a t => .ok a t
    | .error e t => handler e t

/-- A program that is run where a condition holds. -/
def onlyIf (c : Prop) [Decidable c] (m : EStateM ε σ Unit) : EStateM ε σ Unit :=
  if c then m else pure ()

/-- A program on a part of the state. -/
def zoom (get : τ → σ) (set : σ → τ → τ) (m : EStateM ε σ α) : EStateM ε τ α := fun t =>
  match m (get t) with
  | .ok a s => .ok a (set s t)
  | .error e s => .error e (set s t)

/-! ## Running step by step -/

section Run

variable {m : EStateM ε σ α} {f : α → EStateM ε σ β} {s t u : σ} {a : α} {b : β} {e : ε}

theorem bind_of_ok (h : m s = .ok a t) : (m >>= f) s = f a t := by
  show EStateM.bind m f s = f a t
  simp [EStateM.bind, h]

theorem bind_of_error (h : m s = .error e t) : (m >>= f) s = .error e t := by
  show EStateM.bind m f s = .error e t
  simp [EStateM.bind, h]

theorem bind_eq_ok : (m >>= f) s = .ok b u ↔ ∃ a t, m s = .ok a t ∧ f a t = .ok b u := by
  cases hm : m s with
  | ok a t => simp [bind_of_ok hm]
  | error e t => simp [bind_of_error hm]

/-- Of a sequence that fails, the first or the second has failed. -/
theorem bind_eq_error :
    (m >>= f) s = .error e u ↔ m s = .error e u ∨ ∃ a t, m s = .ok a t ∧ f a t = .error e u := by
  cases hm : m s with
  | ok a t => simp [bind_of_ok hm]
  | error e t => simp [bind_of_error hm]

theorem caught_of_ok {ε' : Type} {handler : ε → EStateM ε' σ α} (h : m s = .ok a t) :
    caught handler m s = .ok a t := by
  simp [caught, h]

theorem caught_of_error {ε' : Type} {handler : ε → EStateM ε' σ α} (h : m s = .error e t) :
    caught handler m s = handler e t := by
  simp [caught, h]

/-- An attempt does not fail. -/
theorem attempt_run (m : EStateM ε σ α) (s : σ) : ∃ r, attempt m s = .ok r (final m s) := by
  cases hm : m s with
  | ok a t => exact ⟨.ok a, by simp [attempt, final, hm]⟩
  | error e t => exact ⟨.error e, by simp [attempt, final, hm]⟩

theorem final_of_ok (h : m s = .ok a t) : final m s = t := by simp [final, h]

theorem final_of_error (h : m s = .error e t) : final m s = t := by simp [final, h]

theorem ok_of_succeeds {m : EStateM ε σ Unit} (h : succeeds m s = true) :
    m s = .ok () (final m s) := by
  unfold succeeds at h
  cases hm : m s with
  | ok _ t => rw [final_of_ok hm]
  | error e t => simp [hm] at h

theorem ok_of_answer (h : answer m s = some a) : m s = .ok a (final m s) := by
  unfold answer at h
  cases hm : m s with
  | ok b t =>
    obtain rfl : b = a := by simpa [hm] using h
    rw [final_of_ok hm]
  | error e t => simp [hm] at h

theorem error_of_answer (h : answer m s = none) : ∃ e, m s = .error e (final m s) := by
  unfold answer at h
  cases hm : m s with
  | ok b t => simp [hm] at h
  | error e t => exact ⟨e, by rw [final_of_error hm]⟩

end Run

/-! ## What a program can do -/

/-- A bound on what programs do: it allows doing nothing, and doing one
thing after another. -/
structure Bound (σ : Type) where
  /-- The changes it allows. -/
  rel : σ → σ → Prop
  refl : ∀ s, rel s s
  trans : ∀ {s t u}, rel s t → rel t u → rel s u

/-- Whichever way the program ends, the change is within the bound. -/
def Within (B : Bound σ) (m : EStateM ε σ α) : Prop := ∀ s, B.rel s (final m s)

section Within

variable {B : Bound σ} {m : EStateM ε σ α} {f : α → EStateM ε σ β}

theorem Within.ok {s t : σ} {a : α} (hm : Within B m) (h : m s = .ok a t) : B.rel s t := by
  have hs := hm s
  rwa [final_of_ok h] at hs

theorem Within.error {s t : σ} {e : ε} (hm : Within B m) (h : m s = .error e t) : B.rel s t := by
  have hs := hm s
  rwa [final_of_error h] at hs

@[simp] theorem within_pure (a : α) : Within B (pure a : EStateM ε σ α) := B.refl

@[simp] theorem within_throw (e : ε) : Within B (throw e : EStateM ε σ α) := B.refl

@[simp] theorem within_bind (hm : Within B m) (hf : ∀ a, Within B (f a)) : Within B (m >>= f) := by
  intro s
  have hfirst := hm s
  unfold final at hfirst ⊢
  show B.rel s (match (match m s with | .ok a t => f a t | .error e t => .error e t) with
    | .ok _ t => t | .error _ t => t)
  cases hms : m s with
  | error e t => simpa [hms] using hfirst
  | ok a t => exact B.trans (by simpa [hms] using hfirst) (hf a t)

@[simp] theorem within_map (g : α → β) (hm : Within B m) : Within B (g <$> m) :=
  within_bind hm fun _ => within_pure _

@[simp] theorem within_ite {c : Prop} [Decidable c] {m' : EStateM ε σ α} (hm : Within B m)
    (hm' : Within B m') : Within B (if c then m else m') := by
  split <;> assumption

@[simp] theorem within_onlyIf {c : Prop} [Decidable c] {m : EStateM ε σ Unit}
    (hm : Within B m) : Within B (onlyIf c m) := within_ite hm (within_pure ())

@[simp] theorem within_wrapped (g : ε → ε) (hm : Within B m) : Within B (wrapped g m) := by
  intro s
  have hs := hm s
  unfold final wrapped at *
  cases hms : m s <;> simpa [hms] using hs

@[simp] theorem within_ignored {m : EStateM ε σ Unit} (hm : Within B m) :
    Within B (ignored m) := hm

@[simp] theorem within_caught {ε' : Type} {handler : ε → EStateM ε' σ α} (hm : Within B m)
    (hh : ∀ e, Within B (handler e)) : Within B (caught handler m) := by
  intro s
  have hs := hm s
  unfold final caught at *
  cases hms : m s with
  | ok a t => simpa [hms] using hs
  | error e t => exact B.trans (by simpa [hms] using hs) (hh e t)

@[simp] theorem within_attempt (hm : Within B m) : Within B (attempt m) := by
  intro s
  have hs := hm s
  unfold final attempt at *
  cases hms : m s <;> simpa [hms] using hs

@[simp] theorem within_forM {f : α → EStateM ε σ PUnit} {l : List α} (hf : ∀ a, Within B (f a)) :
    Within B (l.forM f) := by
  induction l with
  | nil => exact B.refl
  | cons a l ih => exact within_bind (hf a) fun _ => ih

theorem within_forM_of_mem {f : α → EStateM ε σ PUnit} {l : List α}
    (hf : ∀ a ∈ l, Within B (f a)) : Within B (l.forM f) := by
  induction l with
  | nil => exact B.refl
  | cons a l ih =>
      exact within_bind (hf a (List.mem_cons_self ..)) fun _ =>
        ih fun b hb => hf b (List.mem_cons_of_mem _ hb)

theorem within_foldlM {f : β → α → EStateM ε σ β} {l : List α} {b : β}
    (hf : ∀ b a, Within B (f b a)) : Within B (l.foldlM f b) := by
  induction l generalizing b with
  | nil => exact B.refl
  | cons a l ih => exact within_bind (hf b a) fun _ => ih

attribute [grind ←] within_pure within_throw within_bind within_map within_onlyIf within_wrapped
  within_ignored within_caught within_attempt within_forM within_foldlM

theorem within_zoom {C : Bound τ} {get : τ → σ} {set : σ → τ → τ} (hm : Within B m)
    (hset : ∀ t s, B.rel (get t) s → C.rel t (set s t)) : Within C (zoom get set m) := by
  intro t
  have ht := hset t _ (hm (get t))
  unfold final zoom at *
  cases hms : m (get t) <;> simpa [hms] using ht

end Within

/-! ## Where a program ends well -/

/-- Where the program ends well, its answer and state are as asked. -/
def Leaves (m : EStateM ε σ α) (s : σ) (Q : α → σ → Prop) : Prop :=
  ∀ a t, m s = .ok a t → Q a t

section Leaves

variable {m : EStateM ε σ α} {s : σ} {Q Q' : α → σ → Prop}

@[simp] theorem leaves_pure (a : α) : Leaves (pure a : EStateM ε σ α) s Q ↔ Q a s := by
  constructor
  · intro h
    exact h a s rfl
  · intro h b t hb
    cases hb
    exact h

@[simp] theorem leaves_throw (e : ε) : Leaves (throw e : EStateM ε σ α) s Q ↔ True := by
  constructor
  · intro _
    trivial
  · intro _ b t hb
    cases hb

theorem Leaves.mono (h : Leaves m s Q) (hQ : ∀ a t, Q a t → Q' a t) : Leaves m s Q' :=
  fun a t hm => hQ a t (h a t hm)

/-- **A program is run one command at a time.** -/
@[simp] theorem leaves_bind {f : α → EStateM ε σ β} {R : β → σ → Prop} :
    Leaves (m >>= f) s R ↔ Leaves m s fun a t => Leaves (f a) t R := by
  have hrun : (m >>= f) s = match m s with | .ok a t => f a t | .error e t => .error e t := rfl
  constructor
  · intro h a t hm b u hb
    exact h b u (by rw [hrun, hm]; exact hb)
  · intro h b u hb
    rw [hrun] at hb
    cases hm : m s with
    | ok a t => exact h a t hm b u (by rwa [hm] at hb)
    | error e t => rw [hm] at hb; cases hb

/-- What a program establishes wherever it starts, it establishes after
another. -/
theorem leaves_after {f : α → EStateM ε σ β} {R : β → σ → Prop} (h : ∀ a t, Leaves (f a) t R) :
    Leaves (m >>= f) s R := by
  rw [leaves_bind]
  exact fun a t _ => h a t

/-- What a program establishes, another keeps. -/
theorem leaves_then {f : α → EStateM ε σ β} {P : σ → Prop} (hm : Leaves m s fun _ => P)
    (hf : ∀ a t, P t → Leaves (f a) t fun _ => P) : Leaves (m >>= f) s fun _ => P := by
  rw [leaves_bind]
  exact hm.mono fun a t ht => hf a t ht

@[simp] theorem leaves_wrapped {g : ε → ε} : Leaves (wrapped g m) s Q ↔ Leaves m s Q := by
  unfold Leaves wrapped
  cases m s <;> simp

theorem leaves_ite {c : Prop} [Decidable c] {m' : EStateM ε σ α} :
    Leaves (if c then m else m') s Q ↔ (c → Leaves m s Q) ∧ (¬ c → Leaves m' s Q) := by
  split <;> simp [*]

@[simp] theorem leaves_onlyIf {c : Prop} [Decidable c] {m : EStateM ε σ Unit}
    {Q : Unit → σ → Prop} :
    Leaves (onlyIf c m) s Q ↔ (c → Leaves m s Q) ∧ (¬ c → Q () s) := by
  rw [onlyIf, leaves_ite, leaves_pure]

/-- **The loop rule.** What every round keeps, the loop keeps. -/
theorem leaves_forM {f : α → EStateM ε σ PUnit} {I : List α → σ → Prop}
    (hround : ∀ a l s, I (a :: l) s → Leaves (f a) s fun _ t => I l t) :
    ∀ (l : List α) (s : σ), I l s → Leaves (l.forM f) s fun _ t => I [] t
  | [], s, h => (leaves_pure PUnit.unit).2 h
  | a :: l, s, h => by
      show Leaves (f a >>= fun _ => l.forM f) s _
      rw [leaves_bind]
      exact (hround a l s h).mono fun _ t ht => leaves_forM hround l t ht

/-- A bound on what follows may use what came before. -/
theorem within_bind_of_leaves {B : Bound σ} {f : α → EStateM ε σ β} (hm : Within B m)
    (hQ : ∀ s, Leaves m s Q) (hf : ∀ a t, Q a t → B.rel t (final (f a) t)) :
    Within B (m >>= f) := by
  intro s
  cases hrun : m s with
  | error e t =>
      rw [final_of_error (bind_of_error hrun)]
      exact hm.error hrun
  | ok a t =>
      have hfinal : final (m >>= f) s = final (f a) t := by
        unfold final
        rw [bind_of_ok hrun]
      rw [hfinal]
      exact B.trans (hm.ok hrun) (hf a t (hQ s a t hrun))

end Leaves

/-! ## Lists of results -/

/-- **A list is worked through to its end** where every element has its
result. -/
theorem mapM_ok {k : α → Except ε β} {l : List α} {r : List β} (hok : l.mapM k = .ok r) :
    (∀ a ∈ l, ∃ b ∈ r, k a = .ok b) ∧ ∀ b ∈ r, ∃ a ∈ l, k a = .ok b := by
  induction l generalizing r with
  | nil =>
      obtain rfl := Except.ok.inj hok
      simp
  | cons a l ih =>
      rw [List.mapM_cons] at hok
      cases ha : k a with
      | error e => rw [ha] at hok; cases hok
      | ok b =>
          cases hrest : l.mapM k with
          | error e => rw [ha, hrest] at hok; cases hok
          | ok rest =>
              rw [ha, hrest] at hok
              obtain rfl := Except.ok.inj hok
              obtain ⟨hall, hfrom⟩ := ih hrest
              constructor
              · intro a' ha'
                rcases List.mem_cons.1 ha' with rfl | ha'
                · exact ⟨b, List.mem_cons_self .., ha⟩
                · obtain ⟨b', hb', hk⟩ := hall a' ha'
                  exact ⟨b', List.mem_cons_of_mem _ hb', hk⟩
              · intro b' hb'
                rcases List.mem_cons.1 hb' with rfl | hb'
                · exact ⟨a, List.mem_cons_self .., ha⟩
                · obtain ⟨a', ha', hk⟩ := hfrom b' hb'
                  exact ⟨a', List.mem_cons_of_mem _ ha', hk⟩

end Fallible

end OpenManet
