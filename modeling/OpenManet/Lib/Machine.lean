import Mathlib.Data.List.Basic
/-!
# Machines and their runs

Two forms of one idea. A *total* machine answers every input with a state
and an output; its runs are lists of inputs. A *guarded* machine may refuse
an input, which is how a scheduler's choices are written: an action that
names a thread which is not there, or not at that point, has no successor.

The rules are the ones every safety argument over either form uses: what
one step keeps, a run keeps.
-/

namespace OpenManet

/-! ## Total machines -/

section Total

variable {σ ι ω : Type*} (step : σ → ι → σ × ω)

/-- The state a list of inputs leads to. -/
def after (s : σ) (is : List ι) : σ := is.foldl (fun s i => (step s i).1) s

/-- The steps of a run: each input with the state it met and the answer it
got. -/
def trace : σ → List ι → List (σ × ι × ω)
  | _, [] => []
  | s, i :: is => (s, i, (step s i).2) :: trace (step s i).1 is

/-- No step of the run is one `p` names. -/
def never (p : σ → ι → Bool) : σ → List ι → Bool
  | _, [] => true
  | s, i :: is => !p s i && never p (step s i).1 is

@[simp] theorem after_nil (s : σ) : after step s [] = s := rfl

@[simp] theorem after_cons (s : σ) (i : ι) (is : List ι) :
    after step s (i :: is) = after step (step s i).1 is := rfl

theorem after_append (s : σ) (is js : List ι) :
    after step s (is ++ js) = after step (after step s is) js := List.foldl_append

@[simp] theorem trace_nil (s : σ) : trace step s [] = [] := rfl

@[simp] theorem trace_cons (s : σ) (i : ι) (is : List ι) :
    trace step s (i :: is) = (s, i, (step s i).2) :: trace step (step s i).1 is := rfl

theorem trace_append (s : σ) (is js : List ι) :
    trace step s (is ++ js) = trace step s is ++ trace step (after step s is) js := by
  induction is generalizing s with
  | nil => rfl
  | cons i is ih => simp only [List.cons_append, trace_cons, after_cons, ih]

theorem never_append (p : σ → ι → Bool) (s : σ) (is js : List ι) :
    never step p s (is ++ js) = (never step p s is && never step p (after step s is) js) := by
  induction is generalizing s with
  | nil => simp [never]
  | cons i is ih => simp [never, ih, Bool.and_assoc]

/-- A cut of the trace is a cut of the inputs. -/
theorem trace_eq_append {s : σ} {is : List ι} {us vs : List (σ × ι × ω)}
    (h : trace step s is = us ++ vs) :
    ∃ js ks, is = js ++ ks ∧ trace step s js = us ∧ trace step (after step s js) ks = vs := by
  induction us generalizing s is with
  | nil => exact ⟨[], is, rfl, rfl, h⟩
  | cons u us ih =>
      cases is with
      | nil => simp at h
      | cons i is =>
          simp only [trace_cons, List.cons_append, List.cons.injEq] at h
          obtain ⟨js, ks, rfl, hjs, hks⟩ := ih h.2
          exact ⟨i :: js, ks, rfl, by rw [trace_cons, hjs, h.1], hks⟩

/-- What a step of a run answers is what the machine answers where it
stands. -/
theorem trace_answer {s : σ} {is : List ι} {e : σ × ι × ω} (he : e ∈ trace step s is) :
    e.2.2 = (step e.1 e.2.1).2 := by
  induction is generalizing s with
  | nil => simp at he
  | cons i is ih =>
      rcases List.mem_cons.1 he with rfl | he
      · rfl
      · exact ih he

/-- A run answers the inputs it is given, in their order. -/
theorem trace_inputs (s : σ) (is : List ι) : (trace step s is).map (fun e => e.2.1) = is := by
  induction is generalizing s with
  | nil => rfl
  | cons i is ih => rw [trace_cons, List.map_cons, ih]

variable {step}

/-- **The invariant rule.** What every step keeps, every run keeps. -/
theorem after_invariant {I : σ → Prop} (hstep : ∀ s i, I s → I (step s i).1)
    {s : σ} (hs : I s) (is : List ι) : I (after step s is) := by
  induction is generalizing s with
  | nil => exact hs
  | cons i is ih => exact ih (hstep s i hs)

/-- The invariant rule, read at every step of a run. -/
theorem trace_invariant {I : σ → Prop} (hstep : ∀ s i, I s → I (step s i).1)
    {s : σ} (hs : I s) {is : List ι} : ∀ e ∈ trace step s is, I e.1 := by
  induction is generalizing s with
  | nil => simp
  | cons i is ih =>
      intro e he
      rcases List.mem_cons.1 he with rfl | he
      · exact hs
      · exact ih (hstep s i hs) e he

end Total

/-- **A loop whose turns may fail.** What every turn that goes well keeps, of
the state and of what is still to come, a loop that goes well keeps. -/
theorem foldlM_ok {σ α ε : Type*} {f : σ → α → Except ε σ} {I : List α → σ → Prop}
    (hturn : ∀ a l s s', I (a :: l) s → f s a = .ok s' → I l s') {l : List α} {s s' : σ}
    (h : I l s) (hrun : l.foldlM f s = .ok s') : I [] s' := by
  induction l generalizing s with
  | nil =>
      obtain rfl := Except.ok.inj hrun
      exact h
  | cons a l ih =>
      rw [List.foldlM_cons] at hrun
      cases hfirst : f s a with
      | error e =>
          rw [hfirst] at hrun
          cases hrun
      | ok t =>
          rw [hfirst] at hrun
          exact ih (hturn a l s t h hfirst) hrun

/-- **A loop that may stop half-way.** Where whether a turn goes through does not
depend on what came before, the loop goes through if every turn does. -/
theorem isSome_foldlM {σ α : Type*} {f : σ → α → Option σ} {P : α → Prop} {l : List α}
    (hturn : ∀ s, ∀ a ∈ l, (f s a).isSome ↔ P a) (s : σ) :
    (l.foldlM f s).isSome ↔ ∀ a ∈ l, P a := by
  induction l generalizing s with
  | nil => simp
  | cons a l ih =>
      have hfirst := hturn s a List.mem_cons_self
      have hrest := fun t => ih (fun u b hb => hturn u b (List.mem_cons_of_mem a hb)) t
      rw [List.foldlM_cons, List.forall_mem_cons]
      cases hstep : f s a with
      | none =>
          rw [hstep] at hfirst
          simp [← hfirst]
      | some t =>
          rw [hstep] at hfirst
          simpa [← hfirst] using hrest t

/-! ## Guarded machines -/

section Guarded

variable {σ ι : Type*} (step : σ → ι → Option σ)

/-- The runs of a guarded machine: every action is enabled where it is
taken. -/
inductive Run : σ → List ι → σ → Prop
  /-- The empty run. -/
  | nil (s : σ) : Run s [] s
  /-- An enabled action, and a run from where it leads. -/
  | cons {s t u : σ} {a : ι} {as : List ι} : step s a = some t → Run t as u → Run s (a :: as) u

/-- Every action of the run is taken where `P` allows it. -/
def Always (P : σ → ι → Prop) : σ → List ι → Prop
  | _, [] => True
  | s, a :: as => P s a ∧ ∀ t, step s a = some t → Always P t as

/-- Every state of the run, the first and the last included, satisfies
`P`. -/
def Throughout (P : σ → Prop) : σ → List ι → Prop
  | s, [] => P s
  | s, a :: as => P s ∧ ∀ t, step s a = some t → Throughout P t as

variable {step}

namespace Run

/-- Evaluating the machine gives a run. -/
theorem of_foldlM {s t : σ} {as : List ι} (h : as.foldlM step s = some t) :
    Run step s as t := by
  induction as generalizing s with
  | nil =>
      simp only [List.foldlM_nil, Option.pure_def, Option.some.injEq] at h
      exact h ▸ Run.nil s
  | cons a as ih =>
      simp only [List.foldlM_cons, Option.bind_eq_bind, Option.bind_eq_some_iff] at h
      obtain ⟨u, hu, hrest⟩ := h
      exact Run.cons hu (ih hrest)

/-- **The invariant rule**, for runs whose actions are all well placed. -/
theorem invariant {I : σ → Prop} {G : σ → ι → Prop} {s t : σ} {as : List ι}
    (h : Run step s as t) (hguard : Always step G s as) (hs : I s)
    (hstep : ∀ u a v, I u → G u a → step u a = some v → I v) : I t := by
  induction h with
  | nil s => exact hs
  | cons hfirst _ ih => exact ih (hguard.2 _ hfirst) (hstep _ _ _ hs hguard.1 hfirst)

/-- The invariant rule with nothing asked of the actions. -/
theorem invariant_of_step {I : σ → Prop} {s t : σ} {as : List ι} (h : Run step s as t) (hs : I s)
    (hstep : ∀ u a v, I u → step u a = some v → I v) : I t := by
  induction h with
  | nil s => exact hs
  | cons hfirst _ ih => exact ih (hstep _ _ _ hs hfirst)

/-- **The log rule.** What every step appends to a log, a run has appended. -/
theorem log {β : Type*} {F : σ → List β} {f : ι → Option β} {s t : σ} {as : List ι}
    (h : Run step s as t) (hstep : ∀ u a v, step u a = some v → F v = F u ++ (f a).toList) :
    F t = F s ++ as.filterMap f := by
  induction h with
  | nil s => simp
  | @cons s u t a as hfirst _ ih =>
      rw [ih, hstep _ _ _ hfirst, List.append_assoc]
      cases hf : f a <;> simp [hf]

/-- The actions determine where a run ends. -/
theorem unique {s t u : σ} {as : List ι} (ht : Run step s as t) (hu : Run step s as u) : t = u := by
  induction ht with
  | nil s => cases hu; rfl
  | cons hfirst _ ih =>
      cases hu with
      | cons hfirst' hrest' =>
          obtain rfl := Option.some.inj (hfirst.symm.trans hfirst')
          exact ih hrest'

/-- A run, and one from where it leads. -/
theorem append {s t u : σ} {as bs : List ι} (h : Run step s as t) (h' : Run step t bs u) :
    Run step s (as ++ bs) u := by
  induction h with
  | nil s => exact h'
  | cons hfirst _ ih => exact Run.cons hfirst (ih h')

/-- A run is cut where its actions are. -/
theorem of_append {s u : σ} {as bs : List ι} (h : Run step s (as ++ bs) u) :
    ∃ t, Run step s as t ∧ Run step t bs u := by
  induction as generalizing s with
  | nil => exact ⟨s, Run.nil s, h⟩
  | cons a as ih =>
      cases h with
      | cons hfirst hrest =>
          obtain ⟨t, hleft, hright⟩ := ih hrest
          exact ⟨t, Run.cons hfirst hleft, hright⟩

end Run

/-- A condition that can be checked at one action can be checked of a
schedule. -/
instance Always.decidable {P : σ → ι → Prop} [∀ s a, Decidable (P s a)] :
    ∀ (s : σ) (as : List ι), Decidable (Always step P s as)
  | _, [] => isTrue trivial
  | s, a :: as =>
      match h : step s a with
      | none => decidable_of_iff (P s a) ⟨fun hP => ⟨hP, by simp [h]⟩, And.left⟩
      | some t =>
          letI := Always.decidable (P := P) t as
          decidable_of_iff (P s a ∧ Always step P t as)
            ⟨fun hP => ⟨hP.1, by simpa [h] using hP.2⟩, fun hP => ⟨hP.1, hP.2 t h⟩⟩

/-- One action at a time. -/
theorem Always.cons {P : σ → ι → Prop} {s t : σ} {a : ι} {as : List ι} (hP : P s a)
    (ht : step s a = some t) (hrest : Always step P t as) : Always step P s (a :: as) :=
  ⟨hP, fun u hu => by rwa [← Option.some.inj (ht.symm.trans hu)]⟩

/-- Actions that may be taken anywhere. -/
theorem Always.of_forall {P : σ → ι → Prop} {as : List ι} (h : ∀ a ∈ as, ∀ s, P s a) (s : σ) :
    Always step P s as := by
  induction as generalizing s with
  | nil => trivial
  | cons a as ih =>
      exact ⟨h a List.mem_cons_self s, fun t _ => ih (fun b hb => h b (List.mem_cons_of_mem a hb)) t⟩

/-- Two conditions that are the same at every action are the same of a run. -/
theorem Always.congr {P Q : σ → ι → Prop} (h : ∀ s a, P s a ↔ Q s a) (s : σ) (as : List ι) :
    Always step P s as ↔ Always step Q s as := by
  induction as generalizing s with
  | nil => exact Iff.rfl
  | cons a as ih => exact and_congr (h s a) (forall_congr' fun t => forall_congr' fun _ => ih t)

/-- What leads up to a cut is well placed. -/
theorem Always.left {P : σ → ι → Prop} {s : σ} {as bs : List ι}
    (h : Always step P s (as ++ bs)) : Always step P s as := by
  induction as generalizing s with
  | nil => trivial
  | cons a as ih => exact ⟨h.1, fun t ht => ih (h.2 t ht)⟩

/-- And so is what follows it. -/
theorem Always.rest {P : σ → ι → Prop} {s t : σ} {as bs : List ι}
    (h : Always step P s (as ++ bs)) (hrun : Run step s as t) : Always step P t bs := by
  induction hrun with
  | nil s => exact h
  | cons hfirst _ ih => exact ih (h.2 _ hfirst)

/-- Two conditions on a run are one. -/
theorem Always.and {P Q : σ → ι → Prop} {s : σ} {as : List ι} (hP : Always step P s as)
    (hQ : Always step Q s as) : Always step (fun s a => P s a ∧ Q s a) s as := by
  induction as generalizing s with
  | nil => trivial
  | cons a as ih => exact ⟨⟨hP.1, hQ.1⟩, fun t ht => ih (hP.2 t ht) (hQ.2 t ht)⟩

/-- A run is well placed if it is so at every cut. -/
theorem always_iff {P : σ → ι → Prop} {s : σ} {as : List ι} :
    Always step P s as ↔
      ∀ bs a cs u, as = bs ++ a :: cs → Run step s bs u → P u a := by
  constructor
  · intro h bs a cs u heq hrun
    induction hrun generalizing as with
    | nil s => subst heq; exact h.1
    | cons hfirst _ ih =>
        subst heq
        exact ih (h.2 _ hfirst) rfl
  · intro h
    induction as generalizing s with
    | nil => trivial
    | cons a as ih =>
        refine ⟨h [] a as s rfl (Run.nil s), fun t ht => ih fun bs b cs u heq hrun => ?_⟩
        exact h (a :: bs) b cs u (by rw [heq]; rfl) (Run.cons ht hrun)

/-- What an invariant gives at every well placed action, a run has at all of
them. -/
theorem Always.of_invariant {I : σ → Prop} {G P : σ → ι → Prop} {s : σ} {as : List ι}
    (hguard : Always step G s as) (hs : I s)
    (hstep : ∀ u a v, I u → G u a → step u a = some v → I v)
    (hP : ∀ u a, I u → G u a → P u a) : Always step P s as := by
  induction as generalizing s with
  | nil => trivial
  | cons a as ih =>
      exact ⟨hP s a hs hguard.1, fun t ht => ih (hguard.2 t ht) (hstep s a t hs hguard.1 ht)⟩

theorem Throughout.head {P : σ → Prop} {s : σ} {as : List ι} (h : Throughout step P s as) : P s := by
  cases as with
  | nil => exact h
  | cons a as => exact h.1

/-- What an invariant gives of every state, a run of well placed actions has
throughout. -/
theorem Throughout.of_invariant {I P : σ → Prop} {G : σ → ι → Prop} {s : σ} {as : List ι}
    (hguard : Always step G s as) (hs : I s)
    (hstep : ∀ u a v, I u → G u a → step u a = some v → I v) (hP : ∀ u, I u → P u) :
    Throughout step P s as := by
  induction as generalizing s with
  | nil => exact hP s hs
  | cons a as ih =>
      exact ⟨hP s hs, fun t ht => ih (hguard.2 t ht) (hstep s a t hs hguard.1 ht)⟩

/-- What holds throughout holds at the end. -/
theorem Throughout.last {P : σ → Prop} {s t : σ} {as : List ι} (h : Throughout step P s as)
    (hrun : Run step s as t) : P t := by
  induction hrun with
  | nil s => exact h
  | cons hfirst _ ih => exact ih (h.2 _ hfirst)

/-- **The exactness rule.** Where, under an invariant that the well placed
actions keep, a step keeps `P` if and only if it is taken where `G` allows it, a
run has `P` throughout if and only if all its actions are so taken. `H` is what
is asked of the actions alone. -/
theorem Run.throughout_iff_always_of_placed {I P : σ → Prop} {G : σ → ι → Prop} {H : ι → Prop}
    {s t : σ} {as : List ι} (h : Run step s as t) (hH : ∀ a ∈ as, H a) (hI : I s) (hP : P s)
    (hinv : ∀ u a v, H a → I u → P u → G u a → step u a = some v → I v)
    (hkeep : ∀ u a v, H a → I u → P u → step u a = some v → (P v ↔ G u a)) :
    Throughout step P s as ↔ Always step G s as := by
  induction h with
  | nil s => exact iff_of_true hP trivial
  | @cons s u t a as hfirst hrest ih =>
      have hnext : ∀ Q : σ → Prop, (∀ v, step s a = some v → Q v) ↔ Q u := fun Q =>
        ⟨fun hall => hall u hfirst, fun hu v hv => Option.some.inj (hfirst.symm.trans hv) ▸ hu⟩
      have ha := hH a List.mem_cons_self
      have hiff := hkeep s a u ha hI hP hfirst
      have hrest' := fun b hb => hH b (List.mem_cons_of_mem a hb)
      simp only [Throughout, Always, hnext, hP, true_and]
      constructor
      · intro hu
        have hG := hiff.1 hu.head
        exact ⟨hG, (ih hrest' (hinv s a u ha hI hP hG hfirst) hu.head).1 hu⟩
      · rintro ⟨hG, hrest⟩
        exact (ih hrest' (hinv s a u ha hI hP hG hfirst) (hiff.2 hG)).2 hrest

/-- The exactness rule, for an invariant that every step keeps. -/
theorem Run.throughout_iff_always {I P : σ → Prop} {G : σ → ι → Prop} {s t : σ} {as : List ι}
    (h : Run step s as t) (hI : I s) (hP : P s)
    (hinv : ∀ u a v, I u → step u a = some v → I v)
    (hkeep : ∀ u a v, I u → P u → step u a = some v → (P v ↔ G u a)) :
    Throughout step P s as ↔ Always step G s as :=
  h.throughout_iff_always_of_placed (H := fun _ => True) (fun _ _ => trivial) hI hP
    (fun u a v _ hu _ _ => hinv u a v hu) fun u a v _ => hkeep u a v

end Guarded

end OpenManet
