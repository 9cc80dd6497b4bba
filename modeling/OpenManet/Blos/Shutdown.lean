import OpenManet.Blos.Polling
/-!
# Beyond line of sight — disabling

`Disable` holds the manager's mutex while it waits for the worker to end. The
worker calls the listeners of the event streams, and a listener whose channel
is full tells the manager, under that mutex. So the two wait for each other
when a listener's channel is full at the wrong time: either the worker is
already on its way to the manager when `Disable` gets the mutex, or it comes
to a full channel while `Disable` waits. Once there, they stay there.
-/

namespace OpenManet

namespace Blos

variable {Thread Stream Event : Type} {s v : State Thread Stream Event} {i : ℕ}

namespace State

/-- A `Disable` has the mutex, and waits for the worker. -/
def Waits (s : State Thread Stream Event) (i : ℕ) : Prop :=
  s.blos = some i ∧ ∃ t update, s.mu = some t ∧ s.caller t = .stopping update

/-- The worker, in a listener, waits for the mutex. -/
def Notes (s : State Thread Stream Event) (i : ℕ) : Prop :=
  ∃ keepalive pending, (s.worker i).run = .noting keepalive pending

/-- The listener the worker calls next has a full channel. -/
def Overflows (s : State Thread Stream Event) (i : ℕ) : Prop :=
  ∃ keepalive l event pending, (s.worker i).run = .firing keepalive ((l, event) :: pending) ∧
    blosEventChanSize ≤ (s.ch l).length

/-- Each has what the other waits for. -/
def Deadlocked (s : State Thread Stream Event) : Prop := ∃ i, s.Waits i ∧ s.Notes i

end State

/-- A worker that is waited for does not come to a full channel, and a worker
that waits for the mutex is not disabled. -/
def Spares (s : State Thread Stream Event) : Action Thread Stream Event → Prop
  | .worker i .fire => s.Waits i → ¬ s.Overflows i
  | .call t .lock => ∀ update i, s.caller t = .disable update → s.blos = some i → ¬ s.Notes i
  | _ => True

/-! ## One step -/

theorem State.Apart.waits (h : State.Apart s v) : v.Waits i ↔ s.Waits i := by
  simp only [State.Waits, h.blos, h.mu, h.caller]

/-- Where nobody is waited for there is no deadlock. -/
theorem not_deadlocked_of_mu (h : ∀ t update, v.mu = some t → v.caller t ≠ .stopping update) :
    ¬ v.Deadlocked := by
  rintro ⟨i, ⟨-, t, update, hmu, ht⟩, -⟩
  exact h t update hmu ht

theorem notes_goTo {j : ℕ} {run : Goroutine Stream Event} (h : (s.goTo i run).Notes j)
    (hrun : run.waits = false) : s.Notes j := by
  obtain ⟨keepalive, pending, hnoting⟩ := h
  rw [State.goTo_run] at hnoting
  split at hnoting
  · rw [hnoting] at hrun
    cases hrun
  · exact ⟨keepalive, pending, hnoting⟩

section Streams

variable [DecidableEq Stream]

/-- A worker comes to wait for the mutex by a full channel only. -/
theorem notes_of_workerStep {j : ℕ} {w : Tick Stream Event} (h : s.workerStep j w = some v)
    (hnotes : v.Notes i) : s.Notes i ∨ (j = i ∧ w = .fire ∧ s.Overflows i) := by
  cases State.ticks_of_workerStep h with
  | goes _ _ hnew => exact .inl (notes_goTo hnotes hnew)
  | ends => exact .inl (notes_goTo hnotes rfl)
  | @sends keepalive _ _ pending =>
      change (s.goTo j (.firing keepalive pending)).Notes i at hnotes
      exact .inl (notes_goTo hnotes rfl)
  | @overflows keepalive l event pending hfiring hfull =>
      by_cases hj : i = j
      · subst hj
        exact .inr ⟨rfl, rfl, keepalive, l, event, pending, hfiring, hfull⟩
      · obtain ⟨keepalive', pending', hnoting⟩ := hnotes
        rw [State.goTo_run, if_neg hj] at hnoting
        exact .inl ⟨keepalive', pending', hnoting⟩
  | notes =>
      obtain ⟨keepalive, pending, hnoting⟩ := notes_goTo hnotes rfl
      exact .inl ⟨keepalive, pending, by rw [← State.noteEventDropped_run]; exact hnoting⟩

/-- And by a full channel it does. -/
theorem notes_of_overflows (h : s.workerStep i .fire = some v) (hfull : s.Overflows i) :
    v.Notes i := by
  obtain ⟨keepalive, l, event, pending, hfiring, hfull⟩ := hfull
  simp only [State.workerStep, hfiring, if_neg (Nat.not_lt.2 hfull)] at h
  obtain rfl := Option.some.inj h
  exact ⟨keepalive, pending, by simp [State.goTo]⟩

/-- **A worker's step** deadlocks exactly when it is waited for and comes to
a full channel. -/
theorem deadlocked_workerStep {j : ℕ} {w : Tick Stream Event} (hclear : ¬ s.Deadlocked)
    (h : s.workerStep j w = some v) :
    ¬ v.Deadlocked ↔ Spares s (.worker j w : Action Thread Stream Event) := by
  have hwaits : ∀ i, v.Waits i ↔ s.Waits i := fun i => (State.apart_workerStep h).waits
  constructor
  · intro hv
    cases w with
    | fire =>
        intro hj hfull
        exact hv ⟨j, (hwaits j).2 hj, notes_of_overflows h hfull⟩
    | _ => trivial
  · rintro hspares ⟨i, hi, hnotes⟩
    rw [hwaits] at hi
    rcases notes_of_workerStep h hnotes with hbefore | ⟨rfl, rfl, hfull⟩
    · exact hclear ⟨i, hi, hbefore⟩
    · exact hspares hi hfull

end Streams

section Calls

variable [DecidableEq Thread]

/-- **A caller's step** deadlocks exactly when it disables a worker that waits
for the mutex. -/
theorem deadlocked_calls {t : Thread} {c : Call} (hs : s.Managed) (hclear : ¬ s.Deadlocked)
    (h : State.Calls s t c v) :
    ¬ v.Deadlocked ↔ Spares s (.call t c : Action Thread Stream Event) := by
  cases h with
  | moves w hold hnew hlock =>
      refine iff_of_true ?_ ?_
      · rintro ⟨i, ⟨hi, t', update, hmu, ht'⟩, hnotes⟩
        by_cases ht : t' = t
        · subst ht
          simp only [State.stands, Function.update_self] at ht'
          rw [ht'] at hnew
          cases hnew
        · simp only [State.stands, Function.update_of_ne ht] at ht'
          exact hclear ⟨i, ⟨hi, t', update, hmu, ht'⟩, hnotes⟩
      · cases c with
        | lock =>
            intro update i ht hi
            have hrunning := hs.running
            rw [hlock rfl update ht, hi] at hrunning
            cases hrunning
        | _ => trivial
  | @enabling configure ctx hfree ht hidle =>
      refine iff_of_true (not_deadlocked_of_mu fun t' update hmu ht' => ?_) fun update i ht' => ?_
      · obtain rfl : t = t' := Option.some.inj hmu
        simp [State.stands] at ht'
      · rw [ht] at ht'
        cases ht'
  | @stops update i hfree ht hrunning hi hworking =>
      have hnotes : (s.stop t i update).Notes i ↔ s.Notes i := by simp [State.Notes, State.stop]
      constructor
      · intro hv update' j ht' hj hnotes'
        obtain rfl : i = j := Option.some.inj (hi.symm.trans hj)
        exact hv ⟨i, ⟨hi, t, update, rfl, by simp [State.stop]⟩, hnotes.2 hnotes'⟩
      · rintro hspares ⟨j, ⟨hj, -⟩, hnotes'⟩
        obtain rfl : i = j := Option.some.inj (hi.symm.trans hj)
        exact hspares update i ht hi (hnotes.1 hnotes')
  | @idles update i hfree ht hi hworking =>
      rw [(hs.working i hi hfree).1] at hworking
      cases hworking
  | installs | fails | ends =>
      exact iff_of_true (not_deadlocked_of_mu (fun _ _ hmu => by cases hmu)) trivial

/-- No caller makes a worker wait for the mutex. -/
theorem notes_of_calls {t : Thread} {c : Call} (h : State.Calls s t c v) (hnotes : v.Notes i) :
    s.Notes i := by
  obtain ⟨keepalive, pending, hnoting⟩ := hnotes
  cases h with
  | moves | enabling | idles | fails | ends => exact ⟨keepalive, pending, hnoting⟩
  | @stops update j hfree ht hrunning hj hworking =>
      refine ⟨keepalive, pending, ?_⟩
      by_cases hij : i = j
      · subst hij
        simpa [State.stop] using hnoting
      · simpa [State.stop, Function.update_of_ne hij] using hnoting
  | @installs configure ctx o ht hok =>
      by_cases hi : i = s.made
      · subst hi
        simp [State.install] at hnoting
      · exact ⟨keepalive, pending, by simpa [State.install, Function.update_of_ne hi] using hnoting⟩

end Calls

variable [DecidableEq Thread] [DecidableEq Stream]

/-- **One step** deadlocks exactly when it does not spare the other side. -/
theorem deadlocked_step {a : Action Thread Stream Event} (hs : s.Managed) (hclear : ¬ s.Deadlocked)
    (h : Blos.step s a = some v) : ¬ v.Deadlocked ↔ Spares s a := by
  cases a with
  | call t c => exact deadlocked_calls hs hclear (State.calls_of_callStep h)
  | worker i w => exact deadlocked_workerStep hclear h
  | cancel request =>
      obtain rfl := Option.some.inj h
      exact iff_of_true hclear trivial
  | serve l r =>
      obtain ⟨hapart, hrun⟩ := State.apart_serveStep h
      have hsame : v.Deadlocked ↔ s.Deadlocked := by
        simp only [State.Deadlocked, hapart.waits, State.Notes, hrun]
      exact iff_of_true (hsame.not.2 hclear) trivial
  | read =>
      obtain ⟨-, heq⟩ := Option.ite_none_right_eq_some.1 h
      exact iff_of_true (Option.some.inj heq ▸ hclear) trivial

/-! ## Runs -/

omit [DecidableEq Thread] [DecidableEq Stream] in
theorem not_deadlocked_newBLOSManager :
    ¬ (newBLOSManager : State Thread Stream Event).Deadlocked :=
  not_deadlocked_of_mu (fun _ _ hmu => by cases hmu)

/-- **When disabling never hangs.** A run has no deadlock in it exactly when
no worker comes to a full channel while it is waited for, and no `Disable`
gets the mutex while the worker waits for it. -/
theorem not_deadlocked_iff_spares {as : List (Action Thread Stream Event)}
    (hrun : Run Blos.step newBLOSManager as s) :
    Throughout Blos.step (fun u => ¬ u.Deadlocked) newBLOSManager as ↔
      Always Blos.step Spares newBLOSManager as :=
  hrun.throughout_iff_always managed_newBLOSManager not_deadlocked_newBLOSManager
    (fun _ _ _ hu hv => hu.step hv) fun _ _ _ hu hclear hv => deadlocked_step hu hclear hv

/-- The boot enables the module, a client listens to its first status, and a
`Disable` waits for the worker to come back from it. -/
def listenAndDisable : List (Action Unit Unit Unit) :=
  [.call () (.enable .background), .call () .lock, .call () (.attempt .succeeds),
    .serve () .stream, .serve () .look, .serve () .add, .worker 0 (.fetched [()] [()]),
    .call () .disable, .call () .lock, .worker 0 .fire, .worker 0 .fired, .worker 0 .synced,
    .worker 0 .done, .call () .stopped]

theorem not_deadlocked_iff_spares_listenAndDisable :
    ∃ s, Run Blos.step newBLOSManager listenAndDisable s ∧ s.isRunning = some false ∧
      Throughout Blos.step (fun u => ¬ u.Deadlocked) newBLOSManager listenAndDisable := by
  have hrun : Run Blos.step newBLOSManager listenAndDisable _ := Run.of_foldlM rfl
  refine ⟨_, hrun, rfl, (not_deadlocked_iff_spares hrun).2 ?_⟩
  refine Always.cons trivial rfl (Always.cons ?_ rfl (Always.cons trivial rfl
    (Always.cons trivial rfl (Always.cons trivial rfl (Always.cons trivial rfl
      (Always.cons trivial rfl (Always.cons trivial rfl (Always.cons ?_ rfl
        (Always.cons ?_ rfl (Always.cons trivial rfl (Always.cons trivial rfl
          (Always.cons trivial rfl (Always.cons trivial rfl trivial)))))))))))))
  · rintro update i ht
    cases ht
  · rintro update i - hi ⟨keepalive, pending, hnoting⟩
    cases hi
    cases hnoting
  · rintro - ⟨keepalive, l, event, pending, -, hfull⟩
    exact absurd (show blosEventChanSize ≤ 0 from hfull) (by decide)

/-! ## A deadlock stays -/

omit [DecidableEq Thread] in
/-- A worker that waits for the mutex waits while another has it. -/
theorem notes_of_held {j : ℕ} {w : Tick Stream Event} {t : Thread} (h : s.workerStep j w = some v)
    (hheld : s.mu = some t) (hnotes : s.Notes i) : v.Notes i := by
  obtain ⟨keepalive, pending, hnoting⟩ := hnotes
  -- the step is another worker's
  have hother : ∀ {run}, (j = i → False) → (s.goTo j run).Notes i := fun hj =>
    ⟨keepalive, pending, by rw [State.goTo_run, if_neg fun hi => hj hi.symm]; exact hnoting⟩
  cases State.ticks_of_workerStep h with
  | goes _ hold =>
      refine hother ?_
      rintro rfl
      rw [hnoting] at hold
      cases hold
  | ends hselecting =>
      refine hother ?_
      rintro rfl
      rw [hnoting] at hselecting
      cases hselecting
  | @sends keepalive' _ _ pending' hfiring =>
      change (s.goTo j (.firing keepalive' pending')).Notes i
      refine hother ?_
      rintro rfl
      rw [hnoting] at hfiring
      cases hfiring
  | overflows hfiring =>
      refine hother ?_
      rintro rfl
      rw [hnoting] at hfiring
      cases hfiring
  | notes _ hfree =>
      rw [hheld] at hfree
      cases hfree

/-- **Nobody gets out of a deadlock.** -/
theorem Deadlocked.step {a : Action Thread Stream Event} (hs : s.Managed) (hd : s.Deadlocked)
    (h : Blos.step s a = some v) : v.Deadlocked := by
  obtain ⟨i, ⟨hi, t, update, hmu, ht⟩, hnotes⟩ := hd
  have hheld : ∀ {t'}, (s.caller t').locks = true → t' = t := fun hlocks =>
    Option.some.inj (((hs.holder _).2 hlocks).symm.trans hmu)
  cases a with
  | call t' c =>
      cases State.calls_of_callStep h with
      | moves w hold hnew hlock =>
          have hne : t ≠ t' := by
            rintro rfl
            rw [ht] at hold
            cases hold
          refine ⟨i, ⟨hi, t, update, hmu, ?_⟩, hnotes⟩
          simpa [State.stands, Function.update_of_ne hne] using ht
      | enabling hfree | stops hfree | idles hfree =>
          rw [hmu] at hfree
          cases hfree
      | installs ht' | fails ht' =>
          have hnone := hs.enabling _ _ _ ht'
          rw [hi] at hnone
          cases hnone
      | @ends update' j ht' hj hexited =>
          obtain rfl := Option.some.inj (hi.symm.trans hj)
          obtain ⟨keepalive, pending, hnoting⟩ := hnotes
          rw [hexited] at hnoting
          cases hnoting
  | cancel request =>
      obtain rfl := Option.some.inj h
      exact ⟨i, ⟨hi, t, update, hmu, ht⟩, hnotes⟩
  | worker j w =>
      exact ⟨i, (State.apart_workerStep h).waits.2 ⟨hi, t, update, hmu, ht⟩,
        notes_of_held h hmu hnotes⟩
  | serve l r =>
      obtain ⟨hapart, hrun⟩ := State.apart_serveStep h
      refine ⟨i, hapart.waits.2 ⟨hi, t, update, hmu, ht⟩, ?_⟩
      rwa [State.Notes, hrun]
  | read =>
      obtain ⟨hfree, -⟩ := Option.ite_none_right_eq_some.1 h
      rw [hmu] at hfree
      cases hfree

/-- A `Disable` that hangs hangs for good. -/
theorem deadlocked_run {as : List (Action Thread Stream Event)} (hs : s.Managed)
    (hd : s.Deadlocked) (hrun : Run Blos.step s as v) : v.Deadlocked :=
  (hrun.invariant_of_step (I := fun u => u.Managed ∧ u.Deadlocked) ⟨hs, hd⟩
    fun _ _ _ hu hv => ⟨hu.1.step hv, Deadlocked.step hu.1 hu.2 hv⟩).2

/-! ## How it comes about -/

/-- Where the worker is about to call a listener whose channel is full, a
`Disable` that comes first hangs. -/
theorem deadlocked_of_overflows {t : Thread} (hs : s.Managed) (hi : s.blos = some i)
    (hfree : s.mu = none) (hidle : s.caller t = .idle) (hfull : s.Overflows i) :
    ∃ v, Run Blos.step s [.call t .disable, .call t .lock, .worker i .fire] v ∧ v.Deadlocked := by
  have hrunning : s.running = true := by
    rw [hs.running, hi]
    rfl
  have hdisable : Blos.step s (.call t .disable) = some (s.stands t (.disable false)) := by
    simp [Blos.step, State.callStep, hidle]
  have hlock : Blos.step (s.stands t (.disable false)) (.call t .lock) =
      some ((s.stands t (.disable false)).stop t i false) := by
    simp [Blos.step, State.callStep, State.stands, hfree, hrunning, hi, (hs.working i hi hfree).1]
  obtain ⟨keepalive, l, event, pending, hfiring, hroom⟩ := hfull
  have hfull : State.Overflows ((s.stands t (.disable false)).stop t i false) i :=
    ⟨keepalive, l, event, pending, by simpa [State.stop, State.stands] using hfiring, hroom⟩
  have hfire : State.workerStep ((s.stands t (.disable false)).stop t i false) i .fire =
      some (((s.stands t (.disable false)).stop t i false).goTo i (.noting keepalive pending)) := by
    simp [State.workerStep, State.stop, State.stands, hfiring, Nat.not_lt.2 hroom]
  refine ⟨_, Run.cons hdisable (Run.cons hlock (Run.cons hfire (Run.nil _))), i, ?_,
    notes_of_overflows hfire hfull⟩
  exact (State.apart_workerStep hfire).waits.2 ⟨hi, t, false, rfl, by simp [State.stop]⟩

/-- **A channel fills.** As many calls of one listener as its channel has room
for. -/
theorem run_fire {keepalive : Bool} {l : Stream} {event : Event} (n : ℕ)
    {pending : List (Stream × Event)}
    (hfiring : (s.worker i).run = .firing keepalive (List.replicate n (l, event) ++ pending))
    (hroom : (s.ch l).length + n ≤ blosEventChanSize) :
    Run Blos.step s (List.replicate n (.worker i .fire))
      { s.goTo i (.firing keepalive pending) with
        ch := Function.update s.ch l (s.ch l ++ List.replicate n event) } := by
  induction n generalizing s with
  | zero =>
      have hsame : { s.goTo i (.firing keepalive pending) with
          ch := Function.update s.ch l (s.ch l ++ List.replicate 0 event) } = s := by
        have hworker : { s.worker i with run := .firing keepalive pending } = s.worker i := by
          rw [show Goroutine.firing keepalive pending = (s.worker i).run from hfiring.symm]
        simp [State.goTo, hworker]
      rw [hsame]
      exact Run.nil s
  | succ n ih =>
      have hlt : (s.ch l).length < blosEventChanSize := by omega
      have hstep : Blos.step s (.worker i .fire) = some
          { s.goTo i (.firing keepalive (List.replicate n (l, event) ++ pending)) with
            ch := Function.update s.ch l (s.ch l ++ [event]) } := by
        simp only [Blos.step, State.workerStep, hfiring, List.replicate_succ, List.cons_append,
          if_pos hlt]
      have hrest := ih
        (s := { s.goTo i (.firing keepalive (List.replicate n (l, event) ++ pending)) with
          ch := Function.update s.ch l (s.ch l ++ [event]) })
        (by simp [State.goTo]) (by simp; omega)
      simp only [State.goTo, Function.update_self, Function.update_idem, List.append_assoc,
        List.singleton_append, ← List.replicate_succ] at hrest
      exact Run.cons hstep hrest

/-- The module is enabled, a client listens, and a status brings one event
more than its channel holds. -/
def oneTooMany : List (Action Unit Unit Unit) :=
  [.call () (.enable .background), .call () .lock, .call () (.attempt .succeeds),
    .serve () .stream, .serve () .look, .serve () .add,
    .worker 0 (.fetched (List.replicate (blosEventChanSize + 1) ()) [()])]

/-- The worker calls the listener until its channel is full, `Disable` comes
to wait for it, and it calls once more. -/
def fullChannel : List (Action Unit Unit Unit) :=
  oneTooMany ++ List.replicate blosEventChanSize (.worker 0 .fire) ++
    [.call () .disable, .call () .lock, .worker 0 .fire]

/-- **A client that does not read.** Its channel is full when `Disable` comes
to wait for the worker, and the worker has one more event for it. -/
theorem fullChannel_deadlocked :
    ∃ s, Run Blos.step newBLOSManager fullChannel s ∧ s.Deadlocked := by
  obtain ⟨s, hsetup, hfiring, hch, hmu, hblos, hidle⟩ :
      ∃ s, Run Blos.step newBLOSManager oneTooMany s ∧
        (s.worker 0).run = .firing false (List.replicate blosEventChanSize ((), ()) ++ [((), ())]) ∧
        s.ch () = [] ∧ s.mu = none ∧ s.blos = some 0 ∧ s.caller () = .idle :=
    ⟨_, Run.of_foldlM rfl, rfl, rfl, rfl, rfl, rfl⟩
  have hfilled := hsetup.append (run_fire blosEventChanSize hfiring (by simp [hch]))
  have hmanaged := hfilled.invariant_of_step managed_newBLOSManager
    fun _ _ _ hu hv => State.Managed.step hu hv
  obtain ⟨v, hrun, hdeadlocked⟩ := deadlocked_of_overflows hmanaged hblos hmu hidle
    ⟨false, (), (), [], by simp [State.goTo], by simp [hch]⟩
  exact ⟨v, hfilled.append hrun, hdeadlocked⟩

end Blos

end OpenManet
