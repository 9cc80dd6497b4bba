import OpenManet.Lib.Machine
/-!
# The comms lifecycle

`internal/comms/manager.go`: `Enable` launches the goroutine that runs
`Start`, `Disable` cancels it and waits for it, `IsRunning` reports a flag.
All three take the manager's one mutex, and `Disable` keeps it while it
waits.

The flag and the goroutine are two things. `Enable` sets the flag, `Disable`
clears it, and the goroutine, which can end by itself (`Start` fails, or the
control source closes its event channel and `Run` returns), does not touch
it. Every interleaving of calls and of the goroutine's own end is a run of
the guarded machine below, which keeps a history of launches and ends to
say what the calls should have known.
-/

namespace OpenManet

namespace Lifecycle

/-- Why a `Start` goroutine ends: an error of `Start`, a closed event
channel, or its context. -/
inductive Cause where
  | startError
  | sourceClosed
  | canceled
deriving DecidableEq, Repr

/-- What happens to a `Start` goroutine. -/
inductive Life where
  | launched (g : ℕ)
  | ended (g : ℕ)
deriving DecidableEq, Repr

/-- A call of the manager. `Enable` builds a config and validates it, or
would; `valid` is what comes of that. -/
inductive Call where
  | enable (valid : Bool)
  | disable
  | isRunning
deriving DecidableEq, Repr

/-- What a call returns: `Enable` an error or nil. -/
inductive Answer where
  | enabled (ok : Bool)
  | disabled
  | status (running : Bool)
deriving DecidableEq, Repr

/-- Where a call is: on its way to the mutex, waiting for a goroutine with
the mutex held, or back. -/
inductive Point where
  | calling
  | joining (g : ℕ)
  | returned (a : Answer)
deriving DecidableEq, Repr

/-- A call and where it is. -/
structure Thread where
  call : Call
  point : Point
deriving DecidableEq, Repr

/-- The manager, the calls made on it and the goroutines it launched. `done`
is the goroutine `m.cancel` and `m.done` belong to; the history is latest
first. -/
structure Manager where
  running : Bool := false
  done : Option ℕ := none
  mu : Option ℕ := none
  threads : List Thread := []
  launches : ℕ := 0
  canceled : List ℕ := []
  history : List Life := []
deriving DecidableEq, Repr

/-- `NewCommsManager`. -/
def newCommsManager : Manager := {}

namespace Manager

variable (m : Manager)

/-- The goroutine was launched and has not ended. -/
def live (g : ℕ) : Bool := decide (.launched g ∈ m.history) && decide (.ended g ∉ m.history)

/-- Where a call is. -/
def pointOf (i : ℕ) : Option Point := m.threads[i]?.map Thread.point

/-- A call goes on from where it is. -/
def goto (i : ℕ) (c : Call) (p : Point) : Manager := { m with threads := m.threads.set i ⟨c, p⟩ }

/-- `Enable`, with the mutex. -/
def enable (i : ℕ) (valid : Bool) : Manager :=
  if m.running then m.goto i (.enable valid) (.returned (.enabled true))
  else if valid then
    { m.goto i (.enable valid) (.returned (.enabled true)) with
      done := some m.launches
      running := true
      launches := m.launches + 1
      history := .launched m.launches :: m.history }
  else m.goto i (.enable valid) (.returned (.enabled false))

/-- `Disable` up to the wait; it keeps the mutex while it waits. -/
def disable (i : ℕ) : Option Manager :=
  if m.running then
    m.done.map fun g =>
      { m.goto i .disable (.joining g) with mu := some i, canceled := g :: m.canceled }
  else some (m.goto i .disable (.returned .disabled))

/-- `Disable` from the wait on. -/
def disabled (i : ℕ) : Manager :=
  { m.goto i .disable (.returned .disabled) with mu := none, done := none, running := false }

/-- `IsRunning`, with the mutex. -/
def isRunning (i : ℕ) : Manager := m.goto i .isRunning (.returned (.status m.running))

/-- The section a call runs once it has the mutex. -/
def locked (i : ℕ) : Call → Option Manager
  | .enable valid => some (m.enable i valid)
  | .disable => m.disable i
  | .isRunning => some (m.isRunning i)

/-- `close(done)`. -/
def exited (g : ℕ) : Manager := { m with history := .ended g :: m.history }

end Manager

/-- What a scheduler can choose. -/
inductive Action where
  /-- Somebody makes a call. -/
  | call (c : Call)
  /-- A call takes the mutex, which is free. -/
  | lock (i : ℕ)
  /-- A `Disable` finds the goroutine it waits for at its end. -/
  | join (i : ℕ)
  /-- A goroutine ends. -/
  | exit (g : ℕ) (cause : Cause)
deriving DecidableEq, Repr

/-- One action. -/
def step (m : Manager) : Action → Option Manager
  | .call c => some { m with threads := m.threads ++ [⟨c, .calling⟩] }
  | .lock i =>
      match m.mu, m.threads[i]? with
      | none, some ⟨c, .calling⟩ => m.locked i c
      | _, _ => none
  | .join i =>
      match m.threads[i]? with
      | some ⟨.disable, .joining g⟩ => if .ended g ∈ m.history then some (m.disabled i) else none
      | _ => none
  | .exit g cause =>
      if m.live g = true ∧ (cause = .canceled → g ∈ m.canceled) then some (m.exited g) else none

/-! ## What is asked of a run -/

/-- At most one `Start` goroutine is live. -/
def OneLive (m : Manager) : Prop := ∀ g g', m.live g = true → m.live g' = true → g = g'

/-- The goroutine launched last was launched after every earlier one had
ended, and none has ended since. -/
def Relaunched (h : List Life) : Prop :=
  ∃ since g before, h = since ++ .launched g :: before ∧ (∀ g', .ended g' ∉ since) ∧
    ∀ g', .launched g' ∈ before → .ended g' ∈ before

/-- What `IsRunning` and `Enable` answer is true where it is given: a
goroutine runs, or has been launched since the last one ended. -/
def Truthful (m : Manager) (a : Action) : Prop :=
  ∀ i t, a = .lock i → step m a = some t →
    (t.pointOf i = some (.returned (.status true)) → ∃ g, t.live g = true) ∧
      (t.pointOf i = some (.returned (.enabled true)) → Relaunched t.history)

/-- `Disable` comes back to no goroutine. -/
def Joined (m : Manager) (a : Action) : Prop :=
  ∀ i t, a = .lock i ∨ a = .join i → step m a = some t →
    t.pointOf i = some (.returned .disabled) → ∀ g, t.live g = false

/-- A goroutine ended that nobody had cancelled, and nobody has since. -/
def Manager.endedAlone (m : Manager) : Bool :=
  m.history.any fun
    | .ended g => decide (g ∉ m.canceled)
    | .launched _ => false

/-- The call that takes the mutex is a `Disable`, or finds no goroutine that
ended alone. -/
def Attended (m : Manager) : Action → Prop
  | .lock i => (step m (.lock i)).isSome = true →
      m.threads[i]?.map Thread.call = some .disable ∨ m.endedAlone = false
  | _ => True

instance (m : Manager) (a : Action) : Decidable (Attended m a) := by
  cases a <;> unfold Attended <;> infer_instance

/-! ## The invariant -/

/-- The history of `n` goroutines that ran one after the other. -/
def past : ℕ → List Life
  | 0 => []
  | n + 1 => .ended n :: .launched n :: past n

theorem mem_past (n g : ℕ) :
    (Life.launched g ∈ past n ↔ g < n) ∧ (Life.ended g ∈ past n ↔ g < n) := by
  induction n with
  | zero => simp [past]
  | succ n ih =>
      simp only [past, List.mem_cons, reduceCtorEq, false_or, ih, Life.launched.injEq,
        Life.ended.injEq]
      omega

/-- The goroutines ran one after the other, and the last may still run. -/
inductive InTurn : ℕ → List Life → Prop
  | ended (n : ℕ) : InTurn n (past n)
  | last (n : ℕ) : InTurn (n + 1) (.launched n :: past n)

/-- **The invariant.** The flag is set for the goroutine launched last,
whether that one still runs or not; the others were cancelled and have
ended; and whoever waits holds the mutex. -/
structure Inv (m : Manager) : Prop where
  inTurn : InTurn m.launches m.history
  on : m.running = true → ∃ n, m.launches = n + 1 ∧ m.done = some n
  off : m.running = false → m.history = past m.launches ∧ ∀ g < m.launches, g ∈ m.canceled
  older : ∀ g, g + 1 < m.launches → g ∈ m.canceled
  newest : ∀ g ∈ m.canceled, g < m.launches ∧
    (m.running = true → m.mu = none → g + 1 < m.launches)
  waits : ∀ i c g, m.threads[i]? = some ⟨c, .joining g⟩ → m.mu = some i ∧ m.running = true ∧
    m.launches = g + 1 ∧ g ∈ m.canceled

theorem inv_new : Inv newCommsManager where
  inTurn := .ended 0
  on := by simp [newCommsManager]
  off := fun _ => ⟨rfl, by simp [newCommsManager]⟩
  older := by simp [newCommsManager]
  newest := by simp [newCommsManager]
  waits := by simp [newCommsManager]

variable {m t : Manager}

theorem live_iff {g : ℕ} :
    m.live g = true ↔ Life.launched g ∈ m.history ∧ Life.ended g ∉ m.history := by
  simp [Manager.live]

/-- Only the goroutine launched last can be live. -/
theorem Inv.eq_of_live (h : Inv m) {g : ℕ} (hlive : m.live g = true) :
    m.launches = g + 1 ∧ m.history = .launched g :: past g := by
  rw [live_iff] at hlive
  have hturn := h.inTurn
  generalize m.launches = n at *
  generalize m.history = hist at *
  cases hturn with
  | ended => exact absurd ((mem_past n g).2.2 ((mem_past n g).1.1 hlive.1)) hlive.2
  | last k =>
      simp only [List.mem_cons, Life.launched.injEq, (mem_past k g).1, (mem_past k g).2, reduceCtorEq,
        false_or] at hlive
      have hgk : g = k := by omega
      rw [hgk]
      exact ⟨rfl, rfl⟩

theorem Inv.oneLive (h : Inv m) : OneLive m := by
  intro g g' hg hg'
  have hleft := (h.eq_of_live hg).1
  have hright := (h.eq_of_live hg').1
  omega

/-- The thread list of a call that went on, at one index. -/
theorem goto_point {i j : ℕ} {c c' : Call} {p p' : Point}
    (h : (m.goto i c p).threads[j]? = some ⟨c', p'⟩) :
    (j = i ∧ p' = p) ∨ m.threads[j]? = some ⟨c', p'⟩ := by
  rw [Manager.goto, List.getElem?_set] at h
  split at h
  · next hij =>
    split at h
    · cases h
      exact .inl ⟨hij.symm, rfl⟩
    · cases h
  · exact .inr h

/-- A call that comes back leaves nobody waiting who was not. -/
theorem Inv.goto (h : Inv m) {i : ℕ} {c : Call} {a : Answer} :
    Inv (m.goto i c (.returned a)) where
  inTurn := h.inTurn
  on := h.on
  off := h.off
  older := h.older
  newest := h.newest
  waits := by
    intro j c' g hj
    rcases goto_point hj with ⟨-, hp⟩ | hj
    · cases hp
    · exact h.waits j c' g hj

theorem Inv.enable (h : Inv m) (hmu : m.mu = none) (i : ℕ) (valid : Bool) :
    Inv (m.enable i valid) := by
  unfold Manager.enable
  split
  · exact h.goto
  · next hoff =>
    rw [Bool.not_eq_true] at hoff
    split
    · have hback := h.goto (i := i) (c := .enable valid) (a := .enabled true)
      refine ⟨?_, fun _ => ⟨m.launches, rfl, rfl⟩, fun hno => (by cases hno), ?_, ?_, ?_⟩
      · rw [(h.off hoff).1]
        exact .last _
      · exact fun g hg => (h.off hoff).2 g (by simpa using hg)
      · intro g hg
        have hlt := (h.newest g hg).1
        exact ⟨Nat.lt_succ_of_lt hlt, fun _ _ => Nat.succ_lt_succ hlt⟩
      · intro j c g hj
        have hheld := (hback.waits j c g hj).1
        rw [Manager.goto, hmu] at hheld
        cases hheld
    · exact h.goto

theorem Inv.disable (h : Inv m) (hmu : m.mu = none) {i : ℕ} (hstep : m.disable i = some t) :
    Inv t := by
  unfold Manager.disable at hstep
  split at hstep
  · next hon =>
    obtain ⟨n, hn, hdone⟩ := h.on hon
    rw [hdone, Option.map_some, Option.some.injEq] at hstep
    subst hstep
    refine ⟨h.inTurn, h.on, fun hoff => ?_, fun g hg => List.mem_cons_of_mem _ (h.older g hg), ?_, ?_⟩
    · rw [Manager.goto] at hoff
      rw [hon] at hoff
      cases hoff
    · intro g hg
      refine ⟨?_, fun _ hfree => by cases hfree⟩
      rcases List.mem_cons.1 hg with rfl | hg
      · exact hn ▸ Nat.lt_succ_self g
      · exact (h.newest g hg).1
    · intro j c' g hj
      rcases goto_point hj with ⟨rfl, hp⟩ | hj
      · cases hp
        exact ⟨rfl, hon, hn, List.mem_cons_self⟩
      · have hheld := (h.waits j c' g hj).1
        rw [hmu] at hheld
        cases hheld
  · cases hstep
    exact h.goto

theorem Inv.disabled (h : Inv m) {i g : ℕ} (hi : m.threads[i]? = some ⟨.disable, .joining g⟩)
    (hended : Life.ended g ∈ m.history) : Inv (m.disabled i) := by
  obtain ⟨hmu, -, hlaunches, hcanceled⟩ := h.waits i _ g hi
  have hover : m.history = past m.launches := by
    have hturn := h.inTurn
    generalize m.launches = n at *
    generalize m.history = hist at *
    cases hturn with
    | ended => rfl
    | last k =>
        obtain rfl : k = g := by omega
        simp [(mem_past k k).2] at hended
  refine ⟨h.inTurn, fun hon => (by cases hon), fun _ => ⟨hover, fun g' hg' => ?_⟩, h.older, ?_, ?_⟩
  · have hg'' : g' < m.launches := hg'
    rcases Nat.lt_or_ge (g' + 1) m.launches with hlt | hge
    · exact h.older g' hlt
    · obtain rfl : g' = g := by omega
      exact hcanceled
  · exact fun g' hg' => ⟨(h.newest g' hg').1, fun hon => by cases hon⟩
  · intro j c' g' hj
    rw [Manager.disabled, Manager.goto] at hj
    dsimp only at hj
    rw [List.getElem?_set] at hj
    split at hj
    · split at hj <;> cases hj
    · next hij =>
      -- only one call can wait
      have hheld := (h.waits j c' g' hj).1
      rw [hmu, Option.some.injEq] at hheld
      exact absurd hheld hij

theorem Inv.exited (h : Inv m) {g : ℕ} (hlive : m.live g = true) : Inv (m.exited g) := by
  obtain ⟨hlaunches, hhist⟩ := h.eq_of_live hlive
  have hpast : (m.exited g).history = past m.launches := by
    rw [Manager.exited, hhist, hlaunches]
    rfl
  refine ⟨?_, h.on, fun hoff => ⟨hpast, (h.off hoff).2⟩, h.older, h.newest, h.waits⟩
  rw [hpast]
  exact .ended _

theorem Inv.call (h : Inv m) (c : Call) :
    Inv { m with threads := m.threads ++ [⟨c, .calling⟩] } := by
  refine ⟨h.inTurn, h.on, h.off, h.older, h.newest, fun i c' g hi => ?_⟩
  rcases Nat.lt_or_ge i m.threads.length with hlt | hge
  · rw [List.getElem?_append_left hlt] at hi
    exact h.waits i c' g hi
  · rw [List.getElem?_append_right hge] at hi
    rcases hk : i - m.threads.length with _ | k
    · rw [hk, List.getElem?_cons_zero] at hi
      cases hi
    · rw [hk, List.getElem?_cons_succ, List.getElem?_nil] at hi
      cases hi

/-- **What an action can be.** -/
theorem step_cases {a : Action} (hstep : step m a = some t) :
    (∃ c, a = .call c ∧ t = { m with threads := m.threads ++ [⟨c, .calling⟩] }) ∨
    (∃ i c, a = .lock i ∧ m.mu = none ∧ m.threads[i]? = some ⟨c, .calling⟩ ∧
      m.locked i c = some t) ∨
    (∃ i g, a = .join i ∧ m.threads[i]? = some ⟨.disable, .joining g⟩ ∧
      Life.ended g ∈ m.history ∧ t = m.disabled i) ∨
    ∃ g cause, a = .exit g cause ∧ m.live g = true ∧ (cause = .canceled → g ∈ m.canceled) ∧
      t = m.exited g := by
  cases a with
  | call c => exact .inl ⟨c, rfl, (Option.some.inj hstep).symm⟩
  | lock i =>
      rw [step] at hstep
      split at hstep
      · next hmu hi => exact .inr (.inl ⟨i, _, rfl, hmu, hi, hstep⟩)
      · cases hstep
  | join i =>
      rw [step] at hstep
      split at hstep
      · next g hi =>
        split at hstep
        · next hended =>
          exact .inr (.inr (.inl ⟨i, g, rfl, hi, hended, (Option.some.inj hstep).symm⟩))
        · cases hstep
      · cases hstep
  | exit g cause =>
      rw [step] at hstep
      split at hstep
      · next hlive =>
        exact .inr (.inr (.inr ⟨g, cause, rfl, hlive.1, hlive.2, (Option.some.inj hstep).symm⟩))
      · cases hstep

/-- **Every action keeps the invariant.** -/
theorem Inv.step {a : Action} (h : Inv m) (hstep : Lifecycle.step m a = some t) : Inv t := by
  obtain ⟨c, -, rfl⟩ | ⟨i, c, -, hmu, hi, hlocked⟩ | ⟨i, g, -, hi, hended, rfl⟩ |
    ⟨g, cause, -, hlive, -, rfl⟩ := step_cases hstep
  · exact h.call c
  · cases c with
    | enable valid =>
        rw [Manager.locked, Option.some.injEq] at hlocked
        exact hlocked ▸ h.enable hmu i valid
    | disable => exact h.disable hmu hlocked
    | isRunning =>
        rw [Manager.locked, Option.some.injEq] at hlocked
        exact hlocked ▸ h.goto
  · exact h.disabled hi hended
  · exact h.exited hlive

/-! ## What the answers say -/

theorem endedAlone_eq_true :
    m.endedAlone = true ↔ ∃ g, Life.ended g ∈ m.history ∧ g ∉ m.canceled := by
  rw [Manager.endedAlone, List.any_eq_true]
  constructor
  · rintro ⟨life, hmem, hlife⟩
    cases life with
    | launched g => cases hlife
    | ended g => exact ⟨g, hmem, of_decide_eq_true hlife⟩
  · rintro ⟨g, hmem, hg⟩
    exact ⟨_, hmem, decide_eq_true hg⟩

/-- With the flag up, the goroutine it is up for is live unless it ended
alone. -/
theorem Inv.live_or_alone (h : Inv m) (hmu : m.mu = none) (hon : m.running = true) :
    ∃ n, m.launches = n + 1 ∧
      ((m.endedAlone = false ∧ m.history = .launched n :: past n) ∨
        (m.endedAlone = true ∧ m.history = past (n + 1))) := by
  obtain ⟨n, hn, -⟩ := h.on hon
  have hold : ∀ g, Life.ended g ∈ past n → g ∈ m.canceled := by
    intro g hg
    have := (mem_past n g).2.1 hg
    exact h.older g (by omega)
  have hnew : n ∉ m.canceled := by
    intro hmem
    have := (h.newest n hmem).2 hon hmu
    omega
  refine ⟨n, hn, ?_⟩
  have hturn := h.inTurn
  rw [hn] at hturn
  generalize hhist : m.history = hist at hturn
  cases hturn with
  | ended =>
      refine .inr ⟨endedAlone_eq_true.2 ⟨n, ?_, hnew⟩, rfl⟩
      rw [hhist]
      exact List.mem_cons_self
  | last =>
      refine .inl ⟨?_, rfl⟩
      rw [← Bool.not_eq_true, endedAlone_eq_true]
      rintro ⟨g, hmem, hg⟩
      rw [hhist, List.mem_cons] at hmem
      exact hg (hold g (hmem.resolve_left (by simp)))

/-- With the flag down nobody ended alone. -/
theorem Inv.not_alone (h : Inv m) (hoff : m.running = false) : m.endedAlone = false := by
  rw [← Bool.not_eq_true, endedAlone_eq_true]
  rintro ⟨g, hmem, hg⟩
  rw [(h.off hoff).1] at hmem
  exact hg ((h.off hoff).2 g ((mem_past _ g).2.1 hmem))

/-- Nothing is live after a whole past. -/
theorem not_live_of_past {n : ℕ} (hhist : m.history = past n) (g : ℕ) : m.live g = false := by
  rw [← Bool.not_eq_true, live_iff, hhist]
  rintro ⟨hlaunched, hended⟩
  exact hended ((mem_past n g).2.2 ((mem_past n g).1.1 hlaunched))

theorem relaunched_last (n : ℕ) : Relaunched (.launched n :: past n) :=
  ⟨[], n, past n, rfl, by simp, fun g hg => (mem_past n g).2.2 ((mem_past n g).1.1 hg)⟩

theorem not_relaunched_past (n : ℕ) : ¬ Relaunched (past (n + 1)) := by
  rintro ⟨since, g, before, heq, hsince, -⟩
  cases since with
  | nil => cases heq
  | cons life since =>
      rw [past, List.cons_append, List.cons.injEq] at heq
      exact hsince n (heq.1 ▸ List.mem_cons_self)

/-- Where a call that goes on is. -/
theorem goto_self {i : ℕ} {c : Call} {p : Point} {th : Thread} (hi : m.threads[i]? = some th) :
    (m.goto i c p).pointOf i = some p := by
  rw [Manager.pointOf, Manager.goto, List.getElem?_set_self (List.getElem?_eq_some_iff.1 hi).1]
  rfl

/-- A call that takes the mutex is truthful exactly if it is attended. -/
theorem Inv.truthful_lock (h : Inv m) {i : ℕ} {c : Call} (hmu : m.mu = none)
    (hi : m.threads[i]? = some ⟨c, .calling⟩) (hlocked : m.locked i c = some t) :
    ((t.pointOf i = some (.returned (.status true)) → ∃ g, t.live g = true) ∧
        (t.pointOf i = some (.returned (.enabled true)) → Relaunched t.history)) ↔
      c = .disable ∨ m.endedAlone = false := by
  cases c with
  | isRunning =>
      rw [Manager.locked, Option.some.injEq] at hlocked
      subst hlocked
      have hself : (m.isRunning i).pointOf i = some (.returned (.status m.running)) := goto_self hi
      rw [hself]
      cases hon : m.running with
      | false => simp [h.not_alone hon]
      | true =>
          obtain ⟨n, -, ⟨halone, hhist⟩ | ⟨halone, hhist⟩⟩ := h.live_or_alone hmu hon
          · have hlive : (m.isRunning i).live n = true := by
              rw [live_iff]
              refine ⟨hhist ▸ List.mem_cons_self, fun hmem => ?_⟩
              rw [show (m.isRunning i).history = .launched n :: past n from hhist] at hmem
              simp [(mem_past n n).2] at hmem
            simp only [halone, reduceCtorEq, or_true, iff_true]
            exact ⟨fun _ => ⟨n, hlive⟩, by simp⟩
          · have hdead : ∀ g, (m.isRunning i).live g = false :=
              not_live_of_past (m := m.isRunning i) hhist
            simp [halone, hdead]
  | disable =>
      have hpoint : ∀ a, a ≠ .disabled → t.pointOf i ≠ some (.returned a) := by
        rw [Manager.locked, Manager.disable] at hlocked
        intro a ha
        split at hlocked
        · obtain ⟨g, -, rfl⟩ := Option.map_eq_some_iff.1 hlocked
          have hself : (m.goto i .disable (.joining g)).pointOf i = some (.joining g) := goto_self hi
          rw [Manager.pointOf] at hself ⊢
          dsimp only
          rw [hself]
          simp
        · cases hlocked
          rw [goto_self hi]
          simpa using ha.symm
      simp only [true_or, iff_true]
      exact ⟨fun hno => absurd hno (hpoint _ (by simp)), fun hno => absurd hno (hpoint _ (by simp))⟩
  | enable valid =>
      rw [Manager.locked, Option.some.injEq] at hlocked
      subst hlocked
      simp only [reduceCtorEq, false_or]
      cases hon : m.running with
      | true =>
          have hself : (m.enable i valid).pointOf i = some (.returned (.enabled true)) := by
            rw [Manager.enable, if_pos hon, goto_self hi]
          have hsame : (m.enable i valid).history = m.history := by
            rw [Manager.enable, if_pos hon]
            rfl
          obtain ⟨n, -, ⟨halone, hhist⟩ | ⟨halone, hhist⟩⟩ := h.live_or_alone hmu hon
          · rw [hself, hsame, hhist]
            simp [halone, relaunched_last n]
          · rw [hself, hsame, hhist]
            simp [halone, not_relaunched_past n]
      | false =>
          have hoff : ¬ m.running = true := by simp [hon]
          simp only [h.not_alone hon, iff_true]
          cases valid with
          | true =>
              have hself : (m.enable i true).pointOf i = some (.returned (.enabled true)) := by
                rw [Manager.enable, if_neg hoff, if_pos rfl]
                exact goto_self hi
              have hnew : (m.enable i true).history = .launched m.launches :: past m.launches := by
                rw [Manager.enable, if_neg hoff, if_pos rfl, ← (h.off hon).1]
              rw [hself, hnew]
              exact ⟨by simp, fun _ => relaunched_last _⟩
          | false =>
              have hself : (m.enable i false).pointOf i = some (.returned (.enabled false)) := by
                rw [Manager.enable, if_neg hoff, if_neg (by simp)]
                exact goto_self hi
              rw [hself]
              simp

/-- **A call is truthful exactly if it is attended.** -/
theorem Inv.truthful_iff (h : Inv m) (a : Action) : Truthful m a ↔ Attended m a := by
  cases a with
  | lock i =>
      have hcases : ∀ t, Lifecycle.step m (.lock i) = some t → ∃ c, m.mu = none ∧
          m.threads[i]? = some ⟨c, .calling⟩ ∧ m.locked i c = some t := by
        intro t hstep
        obtain ⟨c, hno, -⟩ | ⟨j, c, hj, hmu, hi, hlocked⟩ | ⟨j, g, hno, -⟩ | ⟨g, cause, hno, -⟩ :=
          step_cases hstep
        · cases hno
        · cases hj
          exact ⟨c, hmu, hi, hlocked⟩
        · cases hno
        · cases hno
      constructor
      · intro htrue hsome
        obtain ⟨t, hstep⟩ := Option.isSome_iff_exists.1 hsome
        obtain ⟨c, hmu, hi, hlocked⟩ := hcases t hstep
        have hattended := (h.truthful_lock hmu hi hlocked).1 (htrue i t rfl hstep)
        simpa [hi] using hattended
      · rintro hattended j t ⟨⟩ hstep
        obtain ⟨c, hmu, hi, hlocked⟩ := hcases t hstep
        have hhere := hattended (Option.isSome_iff_exists.2 ⟨t, hstep⟩)
        exact (h.truthful_lock hmu hi hlocked).2 (by simpa [hi] using hhere)
  | call c => exact iff_of_true (by rintro i t ⟨⟩) trivial
  | join i => exact iff_of_true (by rintro i t ⟨⟩) trivial
  | exit g cause => exact iff_of_true (by rintro i t ⟨⟩) trivial

/-- **A `Disable` comes back to no goroutine**, attended or not. -/
theorem Inv.joined (h : Inv m) (a : Action) : Joined m a := by
  intro i t ha hstep hback
  obtain ⟨c, rfl, -⟩ | ⟨j, c, rfl, hmu, hi, hlocked⟩ | ⟨j, g, rfl, hi, hended, rfl⟩ |
    ⟨g, cause, rfl, -⟩ := step_cases hstep
  · simp at ha
  · obtain rfl : j = i := by simpa using ha
    cases c with
    | enable valid =>
        rw [Manager.locked, Option.some.injEq] at hlocked
        rw [← hlocked, Manager.enable] at hback
        exfalso
        split at hback
        · rw [goto_self hi] at hback
          cases hback
        · split at hback
          · have hself : (m.goto j (.enable valid) (.returned (.enabled true))).pointOf j =
                some (.returned (.enabled true)) := goto_self hi
            rw [Manager.pointOf] at hself hback
            dsimp only at hback
            rw [hself] at hback
            cases hback
          · rw [goto_self hi] at hback
            cases hback
    | disable =>
        rw [Manager.locked, Manager.disable] at hlocked
        split at hlocked
        · obtain ⟨g, -, rfl⟩ := Option.map_eq_some_iff.1 hlocked
          have hself : (m.goto j .disable (.joining g)).pointOf j = some (.joining g) := goto_self hi
          rw [Manager.pointOf] at hself hback
          dsimp only at hback
          rw [hself] at hback
          cases hback
        · next hoff =>
          cases hlocked
          rw [Bool.not_eq_true] at hoff
          exact not_live_of_past (m := m.goto j .disable (.returned .disabled)) (h.off hoff).1
    | isRunning =>
        rw [Manager.locked, Option.some.injEq] at hlocked
        rw [← hlocked, Manager.isRunning, goto_self hi] at hback
        cases hback
  · exact not_live_of_past ((h.disabled hi hended).off rfl).1
  · simp at ha

/-! ## Runs -/

/-- **The comms lifecycle.** In every run at most one goroutine is live, and
a `Disable` comes back to none. Every `IsRunning` and every `Enable` tells
the truth if and only if none takes the mutex after a goroutine ended alone
and before the next `Disable`. -/
theorem truthful_iff_attended {as : List Action} (hrun : Run step newCommsManager as m) :
    OneLive m ∧ Always step Joined newCommsManager as ∧
      (Always step Truthful newCommsManager as ↔ Always step Attended newCommsManager as) := by
  have hinv : Inv m := hrun.invariant_of_step inv_new fun _ _ _ h hstep => h.step hstep
  have hall : Always step (fun _ _ => True) newCommsManager as :=
    always_iff.2 fun _ _ _ _ _ _ => trivial
  refine ⟨hinv.oneLive, ?_, ?_, ?_⟩
  · exact hall.of_invariant inv_new (fun _ _ _ h _ hstep => h.step hstep) fun _ a h _ => h.joined a
  · exact fun htrue => htrue.of_invariant inv_new (fun _ _ _ h _ hstep => h.step hstep)
      fun _ a h => (h.truthful_iff a).1
  · exact fun hattended => hattended.of_invariant inv_new (fun _ _ _ h _ hstep => h.step hstep)
      fun _ a h => (h.truthful_iff a).2

/-- `Start` fails, a `Disable` follows and then a second `Enable`. -/
def restarted : List Action :=
  [.call (.enable true), .call .disable, .call (.enable true), .call .isRunning, .lock 0,
    .exit 0 .startError, .lock 1, .join 1, .lock 2, .lock 3]

theorem truthful_restarted : ∃ m, Run step newCommsManager restarted m ∧
    Always step Truthful newCommsManager restarted := by
  obtain ⟨m, hm⟩ := Option.isSome_iff_exists.1
    (show (restarted.foldlM step newCommsManager).isSome = true by decide +kernel)
  exact ⟨m, Run.of_foldlM hm,
    (truthful_iff_attended (Run.of_foldlM hm)).2.2.2 (by decide +kernel)⟩

/-- **A failed start is running.** `Enable` launches a goroutine that ends
with an error, `IsRunning` says true, and a second `Enable` is content. -/
theorem failed_start_running :
    ¬ ∀ as m, Run step newCommsManager as m → Always step Truthful newCommsManager as := by
  intro h
  have htrue := h [.call (.enable true), .lock 0, .exit 0 .startError, .call .isRunning, .lock 1] _
    (Run.of_foldlM rfl)
  have hattended : Always step Attended newCommsManager _ :=
    htrue.of_invariant inv_new (fun _ _ _ h _ hstep => h.step hstep) fun _ a h => (h.truthful_iff a).1
  exact absurd hattended (by decide +kernel)

end Lifecycle

end OpenManet
