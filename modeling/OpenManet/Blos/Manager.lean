import OpenManet.Blos.Model
/-!
# Beyond line of sight — the manager

What the steps of callers, workers and handlers do to the manager, once for
everything that is said of it: a worker or a handler leaves it alone, a caller
does one of seven things. And what they all keep: one caller has the mutex,
something is in charge exactly where the manager says it runs, and its worker
is cancelled only under the mutex.
-/

namespace OpenManet

namespace Blos

variable {Thread Stream Event : Type} {s v : State Thread Stream Event}

namespace State

/-- The step is not one of the manager's: whoever holds what, who is in charge
and what the workers were given stay as they are. -/
structure Apart (s v : State Thread Stream Event) : Prop where
  mu : v.mu = s.mu
  blos : v.blos = s.blos
  running : v.running = s.running
  caller : v.caller = s.caller
  cancelled : v.cancelled = s.cancelled
  worker : ∀ j, (v.worker j).ctx = (s.worker j).ctx ∧
    (v.worker j).running = (s.worker j).running ∧ (v.worker j).cancelled = (s.worker j).cancelled

theorem apart_refl : Apart s s := ⟨rfl, rfl, rfl, rfl, rfl, fun _ => ⟨rfl, rfl, rfl⟩⟩

theorem Apart.trans {u : State Thread Stream Event} (h : Apart s u) (h' : Apart u v) :
    Apart s v where
  mu := h'.mu.trans h.mu
  blos := h'.blos.trans h.blos
  running := h'.running.trans h.running
  caller := h'.caller.trans h.caller
  cancelled := h'.cancelled.trans h.cancelled
  worker j := ⟨(h'.worker j).1.trans (h.worker j).1, (h'.worker j).2.1.trans (h.worker j).2.1,
    (h'.worker j).2.2.trans (h.worker j).2.2⟩

theorem apart_self (handler : Stream → Handler) (ch : Stream → List Event) :
    Apart s { s with handler, ch } :=
  ⟨rfl, rfl, rfl, rfl, rfl, fun _ => ⟨rfl, rfl, rfl⟩⟩

/-- A worker may change what the manager does not look at. -/
theorem apart_update {i : ℕ} {w : StatusWorker Stream Event} (hctx : w.ctx = (s.worker i).ctx)
    (hrunning : w.running = (s.worker i).running)
    (hcancelled : w.cancelled = (s.worker i).cancelled) :
    Apart s { s with worker := Function.update s.worker i w } := by
  refine ⟨rfl, rfl, rfl, rfl, rfl, fun j => ?_⟩
  by_cases hj : j = i
  · subst hj
    simp only [Function.update_self]
    exact ⟨hctx, hrunning, hcancelled⟩
  · simp [Function.update_of_ne hj]

theorem apart_goTo (i : ℕ) (run : Goroutine Stream Event) : Apart s (s.goTo i run) :=
  apart_update rfl rfl rfl

theorem goTo_run (i j : ℕ) (run : Goroutine Stream Event) :
    ((s.goTo i run).worker j).run = if j = i then run else (s.worker j).run := by
  by_cases hj : j = i
  · subst hj; simp [goTo]
  · simp [goTo, hj]

/-- A goroutine sent elsewhere has not ended by it. -/
theorem exited_of_goTo {i j : ℕ} {run : Goroutine Stream Event}
    (h : ((s.goTo i run).worker j).run = .exited) (hrun : run ≠ .exited) :
    (s.worker j).run = .exited := by
  rw [goTo_run] at h
  split at h
  · exact absurd h hrun
  · exact h

theorem apart_noteEventDropped : Apart s s.noteEventDropped := by
  unfold noteEventDropped
  split
  · exact apart_refl
  · exact apart_update rfl rfl rfl

theorem noteEventDropped_run (j : ℕ) :
    (s.noteEventDropped.worker j).run = (s.worker j).run := by
  unfold noteEventDropped
  split
  · rfl
  · next i _ =>
    by_cases hj : j = i
    · subst hj; simp
    · simp [Function.update_of_ne hj]

/-! ## What a step can do -/

section Calls

variable [DecidableEq Thread]

/-- What the steps of a caller come to. -/
inductive Calls (s : State Thread Stream Event) (t : Thread) :
    Call → State Thread Stream Event → Prop
  /-- The caller moves on without the mutex. -/
  | moves {c : Call} (w : Caller) (hold : (s.caller t).locks = false) (hnew : w.locks = false)
      (hlock : c = .lock → ∀ update, s.caller t = .disable update → s.running = false) :
      Calls s t c (s.stands t w)
  /-- It gets the mutex and finds nothing running. -/
  | enabling {configure : Bool} {ctx : Context} (hfree : s.mu = none)
      (ht : s.caller t = .enable configure ctx) (hidle : s.running = false) :
      Calls s t .lock { s.stands t (.enabling configure ctx) with mu := some t }
  /-- It gets the mutex, finds a worker running and cancels it. -/
  | stops {update : Bool} {i : ℕ} (hfree : s.mu = none) (ht : s.caller t = .disable update)
      (hrunning : s.running = true) (hi : s.blos = some i)
      (hworking : (s.worker i).running = true) : Calls s t .lock (s.stop t i update)
  /-- The instance in charge has a worker that does not run. -/
  | idles {update : Bool} {i : ℕ} (hfree : s.mu = none) (ht : s.caller t = .disable update)
      (hi : s.blos = some i) (hworking : (s.worker i).running = false) :
      Calls s t .lock (s.disabled t update)
  | installs {configure : Bool} {ctx : Context} {o : Attempt}
      (ht : s.caller t = .enabling configure ctx)
      (hok : o.outcome configure = .ok ()) :
      Calls s t (.attempt o) (s.install t ctx)
  | fails {configure : Bool} {ctx : Context} {o : Attempt} {err : String}
      (ht : s.caller t = .enabling configure ctx)
      (herr : o.outcome configure = .error err) :
      Calls s t (.attempt o) { s.stands t .idle with mu := none }
  | ends {update : Bool} {i : ℕ} (ht : s.caller t = .stopping update) (hi : s.blos = some i)
      (hexited : (s.worker i).run = .exited) : Calls s t .stopped (s.disabled t update)

theorem calls_of_callStep {t : Thread} {c : Call} (h : s.callStep t c = some v) :
    Calls s t c v := by
  cases c with
  | enable ctx | disable | persisted ok =>
      obtain ⟨ht, heq⟩ := Option.ite_none_right_eq_some.1 h
      obtain rfl := Option.some.inj heq
      exact .moves _ (by rw [ht]; rfl) (by first | rfl | (split <;> rfl)) nofun
  | updateBLOSConfig request enableBlos authKey =>
      obtain ⟨ht, heq⟩ := Option.ite_none_right_eq_some.1 h
      have hold : (s.caller t).locks = false := by rw [ht]; rfl
      split at heq
      · split at heq
        · obtain rfl := Option.some.inj heq
          have hself : s.stands t .idle = s := by
            rw [← ht]
            simp [stands]
          have hmoves : Calls s t (.updateBLOSConfig request enableBlos authKey)
              (s.stands t .idle) := .moves _ hold rfl nofun
          rwa [hself] at hmoves
        · obtain rfl := Option.some.inj heq
          exact .moves _ hold rfl nofun
      · obtain rfl := Option.some.inj heq
        exact .moves _ hold rfl nofun
  | lock =>
      obtain ⟨hmu, heq⟩ := Option.ite_none_left_eq_some.1 h
      have hfree : s.mu = none := by simpa using hmu
      split at heq
      · next configure ctx ht =>
        split at heq
        · obtain rfl := Option.some.inj heq
          exact .moves _ (by rw [ht]; rfl) rfl fun _ _ hdisable => by
            rw [ht] at hdisable
            cases hdisable
        · next hidle =>
          obtain rfl := Option.some.inj heq
          exact .enabling hfree ht (by simpa using hidle)
      · next update ht =>
        split at heq
        · next hrunning =>
          obtain ⟨i, hi, rfl⟩ := Option.map_eq_some_iff.1 heq
          split
          · next hworking => exact .stops hfree ht hrunning hi hworking
          · next hworking => exact .idles hfree ht hi (by simpa using hworking)
        · next hidle =>
          obtain rfl := Option.some.inj heq
          exact .moves _ (by rw [ht]; rfl) (by split <;> rfl) fun _ _ _ => by simpa using hidle
      · cases heq
  | attempt o =>
      simp only [callStep] at h
      split at h
      · next configure ctx ht =>
        split at h
        · next hok =>
          obtain rfl := Option.some.inj h
          exact .installs ht hok
        · next herr =>
          obtain rfl := Option.some.inj h
          exact .fails ht herr
      · cases h
  | stopped =>
      simp only [callStep] at h
      split at h
      · next update i ht hi =>
        split at h
        · next hexited =>
          obtain rfl := Option.some.inj h
          exact .ends ht hi hexited
        · cases h
      · cases h

end Calls

section Streams

variable [DecidableEq Stream]

/-- What the steps of a worker come to. -/
inductive Ticks (s : State Thread Stream Event) (i : ℕ) :
    Tick Stream Event → State Thread Stream Event → Prop
  /-- It goes on from where the mutex is no matter to where it is none. -/
  | goes {w : Tick Stream Event} {run : Goroutine Stream Event} (hlives : run ≠ .exited)
      (hold : (s.worker i).run.waits = false) (hnew : run.waits = false) :
      Ticks s i w (s.goTo i run)
  | ends {w : Tick Stream Event} (hselecting : (s.worker i).run = .selecting)
      (hdone : s.workerDone i = true) : Ticks s i w (s.goTo i .exited)
  | sends {keepalive : Bool} {l : Stream} {event : Event} {pending : List (Stream × Event)}
      (hfiring : (s.worker i).run = .firing keepalive ((l, event) :: pending)) :
      Ticks s i .fire { s.goTo i (.firing keepalive pending) with
                        ch := Function.update s.ch l (s.ch l ++ [event]) }
  | overflows {keepalive : Bool} {l : Stream} {event : Event} {pending : List (Stream × Event)}
      (hfiring : (s.worker i).run = .firing keepalive ((l, event) :: pending))
      (hfull : blosEventChanSize ≤ (s.ch l).length) :
      Ticks s i .fire (s.goTo i (.noting keepalive pending))
  /-- It gets the mutex and has the drop counted. -/
  | notes {keepalive : Bool} {pending : List (Stream × Event)}
      (hnoting : (s.worker i).run = .noting keepalive pending) (hfree : s.mu = none) :
      Ticks s i .note (s.noteEventDropped.goTo i (.firing keepalive pending))

theorem ticks_of_workerStep {i : ℕ} {w : Tick Stream Event} (h : s.workerStep i w = some v) :
    Ticks s i w v := by
  cases w with
  | failed | fired | synced | tick =>
      simp only [workerStep] at h
      split at h
      · next hrun =>
        obtain rfl := Option.some.inj h
        exact .goes nofun (by rw [hrun]; rfl) rfl
      · cases h
  | fetched _ _ | keepalive _ _ =>
      simp only [workerStep] at h
      split at h
      · next hrun =>
        obtain ⟨-, heq⟩ := Option.ite_none_right_eq_some.1 h
        obtain rfl := Option.some.inj heq
        exact .goes nofun (by rw [hrun]; rfl) rfl
      · cases h
  | done =>
      simp only [workerStep] at h
      split at h
      · next hselecting =>
        obtain ⟨hdone, heq⟩ := Option.ite_none_right_eq_some.1 h
        obtain rfl := Option.some.inj heq
        exact .ends hselecting hdone
      · cases h
  | fire =>
      simp only [workerStep] at h
      split at h
      · next hfiring =>
        split at h
        · obtain rfl := Option.some.inj h
          exact .sends hfiring
        · next hfull =>
          obtain rfl := Option.some.inj h
          exact .overflows hfiring (Nat.not_lt.1 hfull)
      · cases h
  | note =>
      simp only [workerStep] at h
      split at h
      · next hnoting hfree =>
        obtain rfl := Option.some.inj h
        exact .notes hnoting hfree
      · cases h

/-- A worker's step is not the manager's. -/
theorem apart_workerStep {i : ℕ} {w : Tick Stream Event} (h : s.workerStep i w = some v) :
    Apart s v := by
  cases ticks_of_workerStep h with
  | goes | ends | overflows => exact apart_goTo ..
  | sends => exact (apart_goTo ..).trans (apart_self ..)
  | notes => exact apart_noteEventDropped.trans (apart_goTo ..)

/-- A goroutine ends by a step of its own, and only where its context is
done. -/
theorem exited_of_workerStep {i j : ℕ} {w : Tick Stream Event} (h : s.workerStep i w = some v)
    (hexited : (v.worker j).run = .exited) :
    (s.worker j).run = .exited ∨ s.workerDone j = true := by
  cases ticks_of_workerStep h with
  | goes hlives => exact .inl (exited_of_goTo hexited hlives)
  | ends _ hdone =>
      rw [goTo_run] at hexited
      split at hexited
      · next hj => exact .inr (hj ▸ hdone)
      · exact .inl hexited
  | sends =>
      change ((s.goTo i (.firing _ _)).worker j).run = .exited at hexited
      exact .inl (exited_of_goTo hexited nofun)
  | overflows => exact .inl (exited_of_goTo hexited nofun)
  | notes =>
      rw [← noteEventDropped_run]
      exact .inl (exited_of_goTo hexited nofun)

/-- A handler's step is not the manager's, and moves no goroutine. -/
theorem apart_serveStep {l : Stream} {r : Serve} (h : s.serveStep l r = some v) :
    Apart s v ∧ ∀ j, (v.worker j).run = (s.worker j).run := by
  have hupdate : ∀ {i : ℕ} {w : StatusWorker Stream Event} {handler : Stream → Handler},
      w.ctx = (s.worker i).ctx → w.running = (s.worker i).running →
      w.cancelled = (s.worker i).cancelled → w.run = (s.worker i).run →
      Apart s { s with worker := Function.update s.worker i w, handler } ∧
        ∀ j, (Function.update s.worker i w j).run = (s.worker j).run := by
    intro i w handler hctx hrunning hcancelled hrun
    refine ⟨(apart_update hctx hrunning hcancelled).trans (apart_self ..), fun j => ?_⟩
    by_cases hj : j = i
    · subst hj; simpa using hrun
    · simp [Function.update_of_ne hj]
  cases r with
  | stream | look =>
      obtain ⟨-, heq⟩ := Option.ite_none_right_eq_some.1 h
      obtain rfl := Option.some.inj heq
      exact ⟨apart_self .., fun _ => rfl⟩
  | add | remove =>
      simp only [serveStep] at h
      split at h
      · obtain rfl := Option.some.inj h
        exact hupdate rfl rfl rfl rfl
      · cases h
  | send | leave =>
      simp only [serveStep] at h
      split at h
      · obtain rfl := Option.some.inj h
        exact ⟨apart_self .., fun _ => rfl⟩
      · cases h
  | removeFrom =>
      simp only [serveStep] at h
      split at h
      · obtain ⟨-, heq⟩ := Option.ite_none_right_eq_some.1 h
        obtain rfl := Option.some.inj heq
        exact ⟨apart_self .., fun _ => rfl⟩
      · cases h

end Streams

/-! ## Who has the mutex, and what is in charge -/

/-- What every step keeps of the manager. -/
structure Managed (s : State Thread Stream Event) : Prop where
  holder : ∀ t, s.mu = some t ↔ (s.caller t).locks = true
  running : s.running = s.blos.isSome
  /-- Nothing is in charge while it is being enabled. -/
  enabling : ∀ t configure ctx, s.caller t = .enabling configure ctx → s.blos = none
  /-- A worker is cancelled under the mutex, by who disables. -/
  working : ∀ i, s.blos = some i → s.mu = none →
    (s.worker i).running = true ∧ (s.worker i).cancelled = false

theorem Managed.free {t : Thread} (h : Managed s) (hfree : s.mu = none) :
    (s.caller t).locks = false := by
  cases hlocks : (s.caller t).locks with
  | false => rfl
  | true => exact absurd ((h.holder t).2 hlocks) (by rw [hfree]; nofun)

theorem Managed.apart (h : Managed s) (hapart : Apart s v) : Managed v where
  holder t := by rw [hapart.mu, hapart.caller]; exact h.holder t
  running := by rw [hapart.running, hapart.blos]; exact h.running
  enabling t configure ctx ht := by
    rw [hapart.caller] at ht
    rw [hapart.blos]
    exact h.enabling t configure ctx ht
  working i hi hfree := by
    rw [hapart.blos] at hi
    rw [hapart.mu] at hfree
    rw [(hapart.worker i).2.1, (hapart.worker i).2.2]
    exact h.working i hi hfree

theorem Managed.cancel (h : Managed s) (cancelled : ℕ → Bool) :
    Managed { s with cancelled } := ⟨h.holder, h.running, h.enabling, h.working⟩

section Calls

variable [DecidableEq Thread] {t : Thread}

/-- Who holds the mutex, after a caller that nobody was in the way of. -/
theorem Managed.holder_update (h : Managed s) (w : Caller)
    (hours : s.mu = none ∨ s.mu = some t) (t' : Thread) :
    (if w.locks then some t else none) = some t' ↔
      (Function.update s.caller t w t').locks = true := by
  by_cases ht : t' = t
  · subst ht
    rw [Function.update_self]
    split
    · next hlocks => simp [hlocks]
    · next hlocks => simp [hlocks]
  · have hothers : (s.caller t').locks = false := by
      rcases hours with hfree | hours
      · exact h.free hfree
      · cases hlocks : (s.caller t').locks with
        | false => rfl
        | true =>
            have := (h.holder t').2 hlocks
            rw [hours] at this
            exact absurd (Option.some.inj this).symm ht
    rw [Function.update_of_ne ht, hothers]
    split
    · simp [Ne.symm ht]
    · simp

/-- Nothing is in charge of a caller that enables, whatever another one turns
to. -/
theorem Managed.enabling_update (h : Managed s) {w : Caller}
    (hw : ∀ configure ctx, w = .enabling configure ctx → s.blos = none) (t' : Thread)
    (configure : Bool) (ctx : Context)
    (ht' : Function.update s.caller t w t' = .enabling configure ctx) : s.blos = none := by
  by_cases ht : t' = t
  · subst ht
    rw [Function.update_self] at ht'
    exact hw configure ctx ht'
  · rw [Function.update_of_ne ht] at ht'
    exact h.enabling t' configure ctx ht'

theorem Managed.moves (h : Managed s) (w : Caller) (hold : (s.caller t).locks = false)
    (hnew : w.locks = false) : Managed (s.stands t w) where
  holder t' := by
    by_cases ht : t' = t
    · subst ht
      simp only [stands, Function.update_self, hnew, h.holder, hold]
    · simp only [stands, Function.update_of_ne ht]
      exact h.holder t'
  running := h.running
  enabling := h.enabling_update (by rintro configure ctx rfl; cases hnew)
  working := h.working

theorem Managed.disabled (h : Managed s) (update : Bool)
    (hours : s.mu = none ∨ s.mu = some t) : Managed (s.disabled t update) where
  holder t' := by
    have hlocks : (if update then Caller.persisting else .idle).locks = false := by
      cases update <;> rfl
    have := h.holder_update (if update then Caller.persisting else .idle) hours t'
    rwa [hlocks] at this
  running := rfl
  enabling _ _ _ _ := rfl
  working := nofun

/-- **A caller's step keeps it.** -/
theorem Managed.calls (h : Managed s) {c : Call} (hc : Calls s t c v) : Managed v := by
  cases hc with
  | moves w hold hnew hlock => exact h.moves w hold hnew
  | @enabling configure ctx hfree ht hidle =>
      have hnone : s.blos = none := by
        have := h.running
        rw [hidle] at this
        simpa using this.symm
      exact ⟨h.holder_update (.enabling configure ctx) (.inl hfree), h.running,
        h.enabling_update fun _ _ _ => hnone, nofun⟩
  | @stops update i hfree ht hrunning hi hworking =>
      exact ⟨h.holder_update (.stopping update) (.inl hfree), h.running,
        h.enabling_update nofun, nofun⟩
  | idles hfree ht hi hworking => exact h.disabled _ (.inl hfree)
  | ends ht hi hexited => exact h.disabled _ (.inr ((h.holder t).2 (by rw [ht]; rfl)))
  | @installs configure ctx o ht hok =>
      have hours : s.mu = some t := (h.holder t).2 (by rw [ht]; rfl)
      refine ⟨h.holder_update .idle (.inr hours), rfl, ?_, ?_⟩
      · intro t' configure' ctx' ht'
        exfalso
        by_cases heq : t' = t
        · subst heq
          simp [install] at ht'
        · -- another caller that enables would hold the mutex too
          simp only [install, Function.update_of_ne heq] at ht'
          have := (h.holder t').2 (by rw [ht']; rfl)
          rw [hours] at this
          exact heq (Option.some.inj this).symm
      · intro i hi _
        obtain rfl : s.made = i := Option.some.inj hi
        simp [install]
  | fails ht herr =>
      have hours : s.mu = some t := (h.holder t).2 (by rw [ht]; rfl)
      have hnone : s.blos = none := h.enabling t _ _ ht
      refine ⟨h.holder_update .idle (.inr hours), h.running, h.enabling_update nofun, ?_⟩
      intro i hi
      rw [show s.blos = some i from hi] at hnone
      cases hnone

end Calls

end State

variable [DecidableEq Thread] [DecidableEq Stream]

omit [DecidableEq Thread] [DecidableEq Stream] in
theorem managed_newBLOSManager : (newBLOSManager : State Thread Stream Event).Managed :=
  ⟨fun _ => ⟨nofun, nofun⟩, rfl, nofun, nofun⟩

/-- Every step keeps the manager in order. -/
theorem State.Managed.step {a : Action Thread Stream Event} (h : s.Managed)
    (hstep : Blos.step s a = some v) : v.Managed := by
  cases a with
  | call t c => exact h.calls (State.calls_of_callStep hstep)
  | cancel request =>
      obtain rfl := Option.some.inj hstep
      exact h.cancel _
  | worker i w => exact h.apart (State.apart_workerStep hstep)
  | serve l r => exact h.apart (State.apart_serveStep hstep).1
  | read =>
      obtain ⟨-, heq⟩ := Option.ite_none_right_eq_some.1 hstep
      exact Option.some.inj heq ▸ h

end Blos

end OpenManet
