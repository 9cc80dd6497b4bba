import OpenManet.Blos.Manager
/-!
# Beyond line of sight — polled while running

The manager says it runs; the polling is done by a goroutine that lives until
its context is done, and its context descends from the one the starter was
given. So the two agree exactly as long as that one lasts. `Enable` with the
background context is safe. A request's is cancelled when its handler has
returned, and a module that `UpdateBLOSConfig` has enabled is orphaned: the
worker goes at its next `select`, the manager keeps saying it runs, and a
second `UpdateBLOSConfig` finds nothing to do.
-/

namespace OpenManet

namespace Blos

variable {Thread Stream Event : Type} {s v : State Thread Stream Event}

/-- The goroutine of the instance in charge has not ended. -/
def State.Polled (s : State Thread Stream Event) : Prop :=
  ∃ i, s.blos = some i ∧ (s.worker i).run ≠ .exited

/-- The context of what is in charge is not cancelled, and nothing is put in
charge with a cancelled one. -/
def Outlives (s : State Thread Stream Event) : Action Thread Stream Event → Prop
  | .cancel request => ∀ i, s.blos = some i → (s.worker i).ctx ≠ .request request
  | .call t (.attempt o) => ∀ configure ctx, s.caller t = .enabling configure ctx →
      o.outcome configure = .ok () → s.ctxDone ctx = false
  | _ => True

/-- What is in charge has a context that is not done, and a goroutine unless
it has been cancelled. -/
structure Lasting (s : State Thread Stream Event) : Prop extends s.Managed where
  outlived : ∀ i, s.blos = some i → s.ctxDone (s.worker i).ctx = false
  alive : ∀ i, s.blos = some i → (s.worker i).cancelled = false → (s.worker i).run ≠ .exited

theorem lasting_newBLOSManager : Lasting (newBLOSManager : State Thread Stream Event) :=
  ⟨managed_newBLOSManager, nofun, nofun⟩

theorem State.ctxDone_congr (h : v.cancelled = s.cancelled) (ctx : Context) :
    v.ctxDone ctx = s.ctxDone ctx := by
  cases ctx with
  | background => rfl
  | request r => simp only [State.ctxDone, h]

theorem State.Apart.workerDone (h : State.Apart s v) (i : ℕ) :
    v.workerDone i = s.workerDone i := by
  simp only [State.workerDone, State.ctxDone_congr h.cancelled, (h.worker i).1, (h.worker i).2.2]

/-- A step that is not the manager's keeps it, if it ends no goroutine whose
context is not done. -/
theorem Lasting.apart (h : Lasting s) (hapart : State.Apart s v)
    (hexit : ∀ j, (v.worker j).run = .exited →
      (s.worker j).run = .exited ∨ s.workerDone j = true) : Lasting v := by
  refine ⟨h.toManaged.apart hapart, ?_, ?_⟩
  · intro i hi
    rw [hapart.blos] at hi
    rw [State.ctxDone_congr hapart.cancelled, (hapart.worker i).1]
    exact h.outlived i hi
  · intro i hi hcancelled hexited
    rw [hapart.blos] at hi
    rw [(hapart.worker i).2.2] at hcancelled
    rcases hexit i hexited with hbefore | hdone
    · exact h.alive i hi hcancelled hbefore
    · rw [State.workerDone, hcancelled, h.outlived i hi] at hdone
      cases hdone

/-- A request that did not start what is in charge may be cancelled. -/
theorem Lasting.cancel (h : Lasting s) {request : ℕ}
    (hother : ∀ i, s.blos = some i → (s.worker i).ctx ≠ .request request) :
    Lasting { s with cancelled := Function.update s.cancelled request true } := by
  refine ⟨h.toManaged.cancel _, fun i hi => ?_, h.alive⟩
  have hdone := h.outlived i hi
  have hne := hother i hi
  simp only
  cases hctx : (s.worker i).ctx with
  | background => rfl
  | request r =>
      rw [hctx] at hdone hne
      have hr : r ≠ request := fun heq => hne (congrArg _ heq)
      simpa [State.ctxDone, Function.update_of_ne hr] using hdone

variable [DecidableEq Thread]

/-- What a caller puts in charge is polled, and what it stops is on its way
out. -/
theorem Lasting.calls {t : Thread} {c : Call} (h : Lasting s) (hc : State.Calls s t c v)
    (hguard : Outlives s (.call t c : Action Thread Stream Event)) : Lasting v := by
  refine ⟨h.toManaged.calls hc, ?_, ?_⟩
  · cases hc with
    | moves | enabling | fails => exact h.outlived
    | idles | ends =>
        intro i hi
        cases hi
    | @stops update i hfree ht hrunning hi hworking =>
        intro j hj
        obtain rfl : i = j := Option.some.inj (hi.symm.trans hj)
        have hctx : ((s.stop t i update).worker i).ctx = (s.worker i).ctx := by simp [State.stop]
        rw [hctx, State.ctxDone_congr rfl]
        exact h.outlived i hi
    | @installs configure ctx o ht hok =>
        intro i hi
        obtain rfl : s.made = i := Option.some.inj hi
        have hctx : ((s.install t ctx).worker s.made).ctx = ctx := by simp [State.install]
        rw [hctx, State.ctxDone_congr rfl]
        exact hguard configure ctx ht hok
  · cases hc with
    | moves | enabling | fails => exact h.alive
    | idles | ends =>
        intro i hi
        cases hi
    | @stops update i hfree ht hrunning hi hworking =>
        intro j hj hcancelled
        obtain rfl : i = j := Option.some.inj (hi.symm.trans hj)
        simp [State.stop] at hcancelled
    | @installs configure ctx o ht hok =>
        intro i hi
        obtain rfl : s.made = i := Option.some.inj hi
        simp [State.install]

variable [DecidableEq Stream]

/-- **A step keeps what is in charge polled**, if it lets its context be. -/
theorem Lasting.step {a : Action Thread Stream Event} (h : Lasting s) (hguard : Outlives s a)
    (hstep : Blos.step s a = some v) : Lasting v := by
  cases a with
  | call t c => exact h.calls (State.calls_of_callStep hstep) hguard
  | cancel request =>
      obtain rfl := Option.some.inj hstep
      exact h.cancel hguard
  | worker i w =>
      exact h.apart (State.apart_workerStep hstep)
        fun _ hexited => State.exited_of_workerStep hstep hexited
  | serve l r =>
      obtain ⟨hapart, hrun⟩ := State.apart_serveStep hstep
      exact h.apart hapart fun j hexited => .inl (hrun j ▸ hexited)
  | read =>
      obtain ⟨-, heq⟩ := Option.ite_none_right_eq_some.1 hstep
      exact Option.some.inj heq ▸ h

omit [DecidableEq Thread] [DecidableEq Stream] in
/-- Where nobody has the mutex, the manager tells the truth. -/
theorem Lasting.polled (h : Lasting s) (hrunning : s.isRunning = some true) : s.Polled := by
  obtain ⟨hfree, hrunning⟩ := Option.ite_none_right_eq_some.1 hrunning
  have hsome : s.blos.isSome = true := by
    rw [← h.running]
    exact Option.some.inj hrunning
  obtain ⟨i, hi⟩ := Option.isSome_iff_exists.1 hsome
  exact ⟨i, hi, h.alive i hi (h.working i hi (by simpa using hfree)).2⟩

/-- **When the module is polled while it runs.** In every run in which the
context of what is in charge is not cancelled, and nothing is put in charge
with a cancelled one, `IsRunning` is answered `true` only where the worker of
the current instance has not ended. -/
theorem polled_while_running {as : List (Action Thread Stream Event)}
    (hrun : Run Blos.step newBLOSManager as s)
    (hguard : Always Blos.step Outlives newBLOSManager as) :
    s.isRunning = some true → s.Polled :=
  (hrun.invariant hguard lasting_newBLOSManager fun _ _ _ h hg hv => h.step hg hv).polled

/-- An enabling that succeeds. -/
def Attempt.succeeds : Attempt :=
  ⟨.ok (), .ok (), .ok (), .ok (), .ok true, .ok (), .ok ()⟩

/-- The boot enables the module, and a request to enable it again comes and
goes. -/
def bootAndRequest : List (Action Unit Unit Unit) :=
  [.call () (.enable .background), .call () .lock, .call () (.attempt .succeeds),
    .worker 0 .failed, .call () (.updateBLOSConfig 0 true ['k']), .call () .lock, .cancel 0,
    .worker 0 .tick]

theorem polled_while_running_bootAndRequest :
    ∃ s, Run Blos.step newBLOSManager bootAndRequest s ∧ s.isRunning = some true ∧ s.Polled := by
  have hrun : Run Blos.step newBLOSManager bootAndRequest _ := Run.of_foldlM rfl
  refine ⟨_, hrun, rfl, polled_while_running hrun ?_ rfl⟩
  refine Always.cons trivial rfl (Always.cons trivial rfl (Always.cons ?_ rfl
    (Always.cons trivial rfl (Always.cons trivial rfl (Always.cons trivial rfl
      (Always.cons ?_ rfl (Always.cons trivial rfl trivial)))))))
  · rintro configure ctx hctx -
    cases hctx
    rfl
  · rintro i hi hctx
    cases hi
    cases hctx

/-! ## Orphans -/

/-- The worker can end, with the manager left alone. -/
def Orphans (s : State Thread Stream Event) (i : ℕ) : Prop :=
  ∃ as v, Run Blos.step s as v ∧ State.Apart s v ∧ (v.worker i).run = .exited

theorem Orphans.of_step {i : ℕ} {w : Tick Stream Event} (h : s.workerStep i w = some v)
    (hv : Orphans v i) : Orphans s i := by
  obtain ⟨as, u, hrun, hapart, hexited⟩ := hv
  exact ⟨.worker i w :: as, u, Run.cons h hrun, (State.apart_workerStep h).trans hapart, hexited⟩

theorem orphans_of_selecting {i : ℕ} (hselecting : (s.worker i).run = .selecting)
    (hdone : s.workerDone i = true) : Orphans s i :=
  Orphans.of_step (w := .done) (v := s.goTo i .exited)
    (by simp [State.workerStep, hselecting, hdone])
    ⟨[], _, Run.nil _, State.apart_refl, by simp [State.goTo]⟩

theorem orphans_of_callback {i : ℕ} (hcallback : (s.worker i).run = .callback)
    (hdone : s.workerDone i = true) : Orphans s i :=
  Orphans.of_step (w := .synced) (v := s.goTo i .selecting) (by simp [State.workerStep, hcallback])
    (orphans_of_selecting (by simp [State.goTo]) (by rwa [(State.apart_goTo ..).workerDone]))

/-- The events go out one by one, each into its channel or, nobody being in
the way, into the count of the dropped. -/
theorem orphans_of_firing {i : ℕ} {keepalive : Bool} {pending : List (Stream × Event)}
    (hfiring : (s.worker i).run = .firing keepalive pending) (hfree : s.mu = none)
    (hdone : s.workerDone i = true) : Orphans s i := by
  induction pending generalizing s with
  | nil =>
      refine Orphans.of_step (w := .fired) (v := s.goTo i .callback)
        (by simp [State.workerStep, hfiring]) ?_
      exact orphans_of_callback (by simp [State.goTo]) (by rwa [(State.apart_goTo ..).workerDone])
  | cons call pending ih =>
      obtain ⟨l, event⟩ := call
      by_cases hroom : (s.ch l).length < blosEventChanSize
      · have hstep : s.workerStep i .fire = some { s.goTo i (.firing keepalive pending) with
            ch := Function.update s.ch l (s.ch l ++ [event]) } := by
          simp [State.workerStep, hfiring, hroom]
        have hapart := State.apart_workerStep hstep
        exact Orphans.of_step hstep (ih (by simp [State.goTo]) (hapart.mu.trans hfree)
          (by rwa [hapart.workerDone]))
      · have hfire : s.workerStep i .fire = some (s.goTo i (.noting keepalive pending)) := by
          simp [State.workerStep, hfiring, hroom]
        have hapart := State.apart_workerStep hfire
        have hnote : (s.goTo i (.noting keepalive pending)).workerStep i .note =
            some ((s.goTo i (.noting keepalive pending)).noteEventDropped.goTo i
              (.firing keepalive pending)) := by
          have hmu : (s.goTo i (.noting keepalive pending)).mu = none := hapart.mu.trans hfree
          simp only [State.workerStep, hmu, State.goTo_run, if_pos]
        have hapart' := hapart.trans (State.apart_workerStep hnote)
        exact Orphans.of_step hfire (Orphans.of_step hnote
          (ih (by simp [State.goTo]) (hapart'.mu.trans hfree) (by rwa [hapart'.workerDone])))

/-- **A cancelled context orphans the module.** Where the context of what is
in charge is done and nobody has the mutex, the worker can end with nothing
else touched: the manager says it runs, and nothing polls. -/
theorem orphaned_of_cancelled {i : ℕ} {as : List (Action Thread Stream Event)}
    (hrun : Run Blos.step newBLOSManager as s) (hi : s.blos = some i)
    (hfree : s.mu = none) (hdone : s.ctxDone (s.worker i).ctx = true) :
    ∃ as v, Run Blos.step s as v ∧ v.isRunning = some true ∧ ¬ v.Polled := by
  have h : s.Managed :=
    hrun.invariant_of_step managed_newBLOSManager fun _ _ _ hu hv => hu.step hv
  have hworker : s.workerDone i = true := by rw [State.workerDone, hdone, Bool.or_true]
  have horphans : Orphans s i := by
    cases hrun : (s.worker i).run with
    | fetching =>
        refine Orphans.of_step (w := .failed) (v := s.goTo i .selecting)
          (by simp [State.workerStep, hrun]) ?_
        exact orphans_of_selecting (by simp [State.goTo])
          (by rwa [(State.apart_goTo ..).workerDone])
    | firing keepalive pending => exact orphans_of_firing hrun hfree hworker
    | noting keepalive pending =>
        have hnote : s.workerStep i .note =
            some (s.noteEventDropped.goTo i (.firing keepalive pending)) := by
          simp only [State.workerStep, hrun, hfree]
        have hapart := State.apart_workerStep hnote
        have hfiring : ((s.noteEventDropped.goTo i (.firing keepalive pending)).worker i).run =
            .firing keepalive pending := by simp [State.goTo]
        exact Orphans.of_step hnote (orphans_of_firing hfiring (hapart.mu.trans hfree)
          (by rwa [hapart.workerDone]))
    | callback => exact orphans_of_callback hrun hworker
    | selecting => exact orphans_of_selecting hrun hworker
    | exited => exact ⟨[], s, Run.nil s, State.apart_refl, hrun⟩
  obtain ⟨as, v, hrun, hapart, hexited⟩ := horphans
  have hrunning : v.running = true := by
    rw [hapart.running, h.running, hi]
    rfl
  refine ⟨as, v, hrun, by simp [State.isRunning, hapart.mu, hfree, hrunning], ?_⟩
  rintro ⟨j, hj, hlive⟩
  rw [hapart.blos, hi] at hj
  obtain rfl := Option.some.inj hj
  exact hlive hexited

theorem orphaned_of_cancelled_request : ∃ s : State Unit Unit Unit, ∃ as v,
    Run Blos.step s as v ∧ v.isRunning = some true ∧ ¬ v.Polled := by
  have hrun : Run Blos.step (newBLOSManager : State Unit Unit Unit)
    [.call () (.updateBLOSConfig 0 true ['k']), .call () .lock, .call () (.attempt .succeeds),
      .cancel 0] _ := Run.of_foldlM rfl
  exact ⟨_, orphaned_of_cancelled hrun rfl rfl rfl⟩

/-- **A module enabled by a request.** `UpdateBLOSConfig` has returned, its
context is cancelled, and the worker ends at its next `select`. -/
theorem enabled_by_request_orphaned :
    ∃ s : State Unit Unit Unit, Run Blos.step newBLOSManager
        [.call () (.updateBLOSConfig 0 true ['k']), .call () .lock, .call () (.attempt .succeeds),
          .worker 0 (.fetched [()] []), .worker 0 .fired, .worker 0 .synced, .cancel 0,
          .worker 0 .done] s ∧
      s.caller () = .idle ∧ s.isRunning = some true ∧ ¬ s.Polled := by
  refine ⟨_, Run.of_foldlM rfl, rfl, rfl, ?_⟩
  rintro ⟨i, hi, hlive⟩
  cases hi
  exact hlive rfl

end Blos

end OpenManet
