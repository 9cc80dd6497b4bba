import OpenManet.Sysupgrade.Model
/-!
# A cancel that succeeds

`CancelUpgrade` refuses once `upgradeStarted` is set, and the goroutine sets
it in a section of its own after the runner has returned. The runner has
launched the child by then. From the launch to that section, and on the
runner's error path to the deferred section that drops `upgradeCancel`, a
cancel finds nothing to refuse it and answers `nil` for an upgrade whose
child is running: `Unflagged`.

Everywhere else the answer is sound. Before the launch the cancelled context
stops the runner, and after the flag the cancel is refused.
-/

namespace OpenManet

namespace Sysupgrade

open State

/-- `upgradeStarted` has been set, and the watcher is not done or gave up. -/
def Goroutine.flagged : Goroutine → Bool
  | .upgrading | .watch | .unwatched => true
  | _ => false

/-- The request has not called the runner. -/
def Job.early : Job → Bool
  | .upgrade _ g => g.early
  | .returned _ => false
  | _ => true

/-- The request's goroutine is past its flag. -/
def Job.flagged : Job → Bool
  | .upgrade _ g => g.flagged
  | _ => false

/-- What the fields say of request `k`'s child. -/
structure Tracked (s : State) (k : ℕ) : Prop where
  early : (s.jobs k).early = true → s.launched k = false
  flagged : (s.jobs k).flagged = true → s.upgradeCancel = some k → s.upgradeStarted = true
  ended : ∀ e, s.jobs k = .returned e → s.launched k = true → s.upgradeCancel ≠ some k

/-- Request `k`'s child is launched, its goroutine has neither set the flag
nor ended, and nothing else keeps a cancel from it. -/
structure Unflagged (s : State) (k : ℕ) : Prop where
  owner : s.upgradeCancel = some k
  notStarted : s.upgradeStarted = false
  launched : s.launched k = true
  atRunner : ∃ src g, s.jobs k = .upgrade src g ∧ g.early = false ∧ g.flagged = false

/-- What no step but its own can do to request `k`: hand it
`upgradeCancel`, or take the flag back under it. -/
def KeepsFlag (k : ℕ) (s t : State) : Prop :=
  t.upgradeCancel = some k →
    s.upgradeCancel = some k ∧ (s.upgradeStarted = true → t.upgradeStarted = true)

section Steps

variable {s t u : State} {i k : ℕ} {j : Job}

theorem KeepsFlag.of_eq (hc : t.upgradeCancel = s.upgradeCancel)
    (hs : t.upgradeStarted = s.upgradeStarted) : KeepsFlag k s t := by
  intro h
  rw [hc] at h
  exact ⟨h, fun hstarted => hs.trans hstarted⟩

/-- Another request's step. -/
theorem Tracked.setJob_other (h : Tracked s k) (hk : k ≠ i) (hjobs : t.jobs = s.jobs)
    (hlaunched : t.launched k = s.launched k) (hkeep : KeepsFlag k s t) :
    Tracked (t.setJob i j) k := by
  have hjob : (t.setJob i j).jobs k = s.jobs k := by rw [setJob_jobs_of_ne hk, hjobs]
  refine ⟨?_, ?_, ?_⟩
  · intro he
    rw [hjob] at he
    exact hlaunched.trans (h.early he)
  · intro hf hc
    rw [hjob] at hf
    exact (hkeep hc).2 (h.flagged hf (hkeep hc).1)
  · intro e he hl hc
    rw [hjob] at he
    exact h.ended e he (hlaunched.symm.trans hl) (hkeep hc).1

/-- Its own step, still short of the runner. -/
theorem Tracked.setJob_early (hl : t.launched i = false) (hj : j.flagged = false) :
    Tracked (t.setJob i j) i := by
  refine ⟨fun _ => hl, ?_, ?_⟩
  · intro hf
    rw [setJob_jobs_self, hj] at hf
    cases hf
  · intro e _ hcon
    rw [setJob_launched, hl] at hcon
    cases hcon

/-- A goroutine's step moves it on, launches at most its own child, and
leaves every other request's flag alone. -/
theorem runUpgrade_flag {g : Goroutine} {o : Outcome} {r : Option Goroutine}
    (h : s.runUpgrade i g o = some (t, r)) :
    t.jobs = s.jobs ∧ (∀ k, k ≠ i → t.launched k = s.launched k) ∧
      ∀ k, KeepsFlag k s t := by
  cases g <;> cases o <;> simp only [runUpgrade, Option.some.injEq, Prod.mk.injEq,
    Option.ite_none_left_eq_some, reduceCtorEq] at h
  case launch.run child =>
    obtain ⟨-, rfl, rfl⟩ := h
    refine ⟨rfl, fun k hk => ?_, fun k => KeepsFlag.of_eq rfl rfl⟩
    cases child <;> simp [hk]
  case flag.ok =>
    obtain ⟨rfl, rfl⟩ := h
    exact ⟨rfl, fun _ _ => rfl, fun _ hc => ⟨hc, fun _ => rfl⟩⟩
  case published.ok | unwatched.ok =>
    obtain ⟨rfl, rfl⟩ := h
    exact ⟨rfl, fun _ _ => rfl, fun _ hc => by cases hc⟩
  all_goals
    obtain ⟨rfl, rfl⟩ := h
    exact ⟨rfl, fun _ _ => rfl, fun _ => KeepsFlag.of_eq rfl rfl⟩

/-- **The goroutine's own step.** -/
theorem Tracked.runUpgrade {src : Source} {g : Goroutine} {o : Outcome} {r : Option Goroutine}
    (h : Tracked s i) (hjob : s.jobs i = .upgrade src g)
    (hstep : s.runUpgrade i g o = some (t, r)) :
    Tracked (t.setJob i (.ofGoroutine src r)) i := by
  have hearly := h.early
  have hflag := h.flagged
  rw [hjob] at hearly hflag
  cases g <;> cases o <;> simp only [State.runUpgrade, Option.some.injEq, Prod.mk.injEq,
    Option.ite_none_left_eq_some, reduceCtorEq] at hstep
  case launch.run child =>
    obtain ⟨-, rfl, rfl⟩ := hstep
    exact ⟨fun hcon => by simp [Job.ofGoroutine, Job.early, Goroutine.early] at hcon,
      fun hcon => by simp [Job.ofGoroutine, Job.flagged, Goroutine.flagged] at hcon,
      fun e he => by simp [Job.ofGoroutine] at he⟩
  case published.ok | unwatched.ok =>
    -- the deferred section: nothing is left to cancel
    obtain ⟨rfl, rfl⟩ := hstep
    exact ⟨fun hcon => by simp [Job.ofGoroutine, Job.early] at hcon,
      fun hcon => by simp [Job.ofGoroutine, Job.flagged] at hcon, fun _ _ _ hc => by simp at hc⟩
  case flag.ok =>
    obtain ⟨rfl, rfl⟩ := hstep
    exact ⟨fun hcon => by simp [Job.ofGoroutine, Job.early, Goroutine.early] at hcon, fun _ _ => rfl,
      fun e he => by simp [Job.ofGoroutine] at he⟩
  all_goals
    obtain ⟨rfl, rfl⟩ := hstep
    refine ⟨?_, ?_, fun e he => by simp [Job.ofGoroutine] at he⟩
    · simp_all [Job.ofGoroutine, Job.early, Goroutine.early]
    · simp_all [Job.ofGoroutine, Job.flagged, Goroutine.flagged]

/-- A request that is not its goroutine yet, or never was one, moves on. -/
theorem Tracked.setJob_of_early (h : ∀ k, Tracked s k) (hjobs : t.jobs = s.jobs)
    (hlaunched : t.launched = s.launched) (hkeep : ∀ k, k ≠ i → KeepsFlag k s t)
    (hi : (s.jobs i).early = true) (hj : j.flagged = false) (k : ℕ) :
    Tracked (t.setJob i j) k := by
  by_cases hk : k = i
  · subst hk
    exact Tracked.setJob_early (hlaunched ▸ (h k).early hi) hj
  · exact (h k).setJob_other hk hjobs (congrFun hlaunched k) (hkeep k hk)

/-- **A step of a request.** -/
theorem Tracked.advance {sha256 : Bytes → String} {o : Outcome} (h : ∀ k, Tracked s k)
    (hstep : s.advance sha256 i o = some t) (k : ℕ) : Tracked t k := by
  obtain ⟨src, g, u, r, hjob, hrun, rfl⟩ | ⟨-, hup, hret, u, j, hsame, rfl, hfirst⟩ :=
    advance_cases hstep
  · obtain ⟨hjobs, hlaunched, hkeep⟩ := runUpgrade_flag hrun
    by_cases hk : k = i
    · subst hk
      exact (h k).runUpgrade hjob hrun
    · exact (h k).setJob_other hk hjobs (hlaunched k hk) (hkeep k)
  · have hearly : (s.jobs i).early = true := by
      cases hjob : s.jobs i with
      | upgrade src g => exact absurd hjob (hup src g)
      | returned e => exact absurd hjob (hret e)
      | _ => rfl
    have hj : j.flagged = false := by
      cases j with
      | upgrade src g =>
          have hg := hfirst src g rfl
          cases g <;> simp_all [Goroutine.first, Job.flagged, Goroutine.flagged]
      | _ => rfl
    exact Tracked.setJob_of_early h hsame.jobs hsame.launched
      (fun k _ => KeepsFlag.of_eq hsame.upgradeCancel hsame.upgradeStarted) hearly hj k

/-- `upgradeCancel` is dropped. -/
theorem Tracked.dropped (h : Tracked s k) (hjobs : t.jobs = s.jobs)
    (hlaunched : t.launched = s.launched) (hc : t.upgradeCancel = none) : Tracked t k := by
  refine ⟨fun he => ?_, fun _ hcon => ?_, fun _ _ _ hcon => ?_⟩
  · rw [hlaunched]; exact h.early (hjobs ▸ he)
  · rw [hc] at hcon; cases hcon
  · rw [hc] at hcon; cases hcon

/-- **One step.** -/
theorem Tracked.step {sha256 : Bytes → String} {a : Action} (h : ∀ k, Tracked s k)
    (hstep : Sysupgrade.step sha256 s a = some t) (k : ℕ) : Tracked t k := by
  -- a call begins where the request was absent
  have hnew : ∀ {u : State} {i : ℕ} {j : Job}, s.jobs i = .absent → u.jobs = s.jobs →
      u.launched = s.launched → (∀ k, k ≠ i → KeepsFlag k s u) → j.flagged = false →
      Tracked (u.setJob i j) k := fun habs hjobs hlaunched hkeep hj =>
    Tracked.setJob_of_early h hjobs hlaunched hkeep (by rw [habs]; rfl) hj k
  have hsame : ∀ k, KeepsFlag k s s := fun _ => KeepsFlag.of_eq rfl rfl
  cases a with
  | startUpgrade i call =>
      obtain ⟨habs, rfl⟩ := whenAbsent_eq_some.1 hstep
      unfold startUpgrade
      split
      · exact hnew habs rfl rfl (fun k _ => hsame k) rfl
      · exact hnew habs rfl rfl (fun k hk hc => absurd (Option.some.inj hc).symm hk) rfl
  | startLocalUpgrade i call skip =>
      obtain ⟨habs, rfl⟩ := whenAbsent_eq_some.1 hstep
      unfold startLocalUpgrade
      split
      · exact hnew habs rfl rfl (fun k _ => hsame k) rfl
      · exact hnew habs rfl rfl (fun k hk hc => absurd (Option.some.inj hc).symm hk) rfl
  | listAvailableUpdates i force cached =>
      obtain ⟨habs, rfl⟩ := whenAbsent_eq_some.1 hstep
      refine hnew habs rfl rfl (fun k _ => hsame k) ?_
      split <;> rfl
  | storeStagedImage i =>
      obtain ⟨habs, rfl⟩ := whenAbsent_eq_some.1 hstep
      unfold storeStagedImage
      split
      · exact hnew habs rfl rfl (fun k _ => hsame k) rfl
      · exact hnew habs rfl rfl (fun k _ => KeepsFlag.of_eq rfl rfl) rfl
  | discardStagedImage i =>
      obtain ⟨habs, rfl⟩ := whenAbsent_eq_some.1 hstep
      unfold discardStagedImage
      split
      · exact hnew habs rfl rfl (fun k _ => hsame k) rfl
      · exact hnew habs rfl rfl (fun k _ => KeepsFlag.of_eq rfl rfl) rfl
  | cancelUpgrade =>
      obtain rfl := Option.some.inj hstep
      unfold cancelUpgrade
      split
      · exact (h k).dropped rfl rfl rfl
      · exact h k
  | shutdown =>
      obtain rfl := Option.some.inj hstep
      unfold shutdown
      split
      · exact (h k).dropped rfl rfl rfl
      · exact h k
  | advance i o => exact Tracked.advance h hstep k

theorem tracked_newManager (k : ℕ) : Tracked newManager k :=
  ⟨fun _ => rfl, (fun hcon => by cases hcon), (fun _ hcon => by cases hcon)⟩

/-- **A cancel in reach of a launched child** finds the goroutine between
the runner and its flag. -/
theorem Tracked.unflagged (h : Tracked s k) (hc : s.upgradeCancel = some k)
    (hs : s.upgradeStarted = false) (hl : s.launched k = true) : Unflagged s k := by
  refine ⟨hc, hs, hl, ?_⟩
  cases hjob : s.jobs k with
  | upgrade src g =>
      refine ⟨src, g, rfl, ?_, ?_⟩
      · by_contra he
        have := h.early (by rw [hjob]; simpa [Job.early] using he)
        rw [hl] at this; cases this
      · by_contra hf
        have := h.flagged (by rw [hjob]; simpa [Job.flagged] using hf) hc
        rw [hs] at this; cases this
  | returned e => exact absurd hc (h.ended e hjob hl)
  | _ =>
      have := h.early (by rw [hjob]; rfl)
      rw [hl] at this; cases this

/-! ## Launches -/

/-- A goroutine's step launches a child only under a context that is not
cancelled. -/
theorem runUpgrade_launched {g : Goroutine} {o : Outcome} {r : Option Goroutine}
    (h : s.runUpgrade i g o = some (t, r)) (k : ℕ) :
    t.canceled = s.canceled ∧ (s.launched k = true → t.launched k = true) ∧
      (t.launched k = true → s.launched k = true ∨ s.canceled k = false) := by
  cases g <;> cases o <;> simp only [runUpgrade, Option.some.injEq, Prod.mk.injEq,
    Option.ite_none_left_eq_some, reduceCtorEq] at h
  case launch.run child =>
    obtain ⟨hctx, rfl, rfl⟩ := h
    cases child with
    | false => exact ⟨rfl, id, .inl⟩
    | true =>
        by_cases hk : k = i
        · subst hk
          exact ⟨rfl, fun _ => Function.update_self .., fun _ => .inr (by simpa using hctx)⟩
        · simp only [if_true, Function.update_of_ne hk]
          exact ⟨trivial, id, .inl⟩
  all_goals
    obtain ⟨rfl, rfl⟩ := h
    exact ⟨rfl, id, .inl⟩

/-- **What a step does about a child**: a cancelled context stays cancelled,
a launched child stays launched, and a launch needs a context that is not
cancelled. -/
theorem step_child {sha256 : Bytes → String} {a : Action}
    (h : Sysupgrade.step sha256 s a = some t) (k : ℕ) :
    (s.canceled k = true → t.canceled k = true) ∧ (s.launched k = true → t.launched k = true) ∧
      (t.launched k = true → s.launched k = true ∨ s.canceled k = false) := by
  have hcancel : ∀ c, s.canceled k = true → (s.cancel c).canceled k = true := by
    intro c hk
    exact ((SameControl.refl s).sameChild.cancel c).canceled k hk
  cases a with
  | startUpgrade i call =>
      obtain ⟨-, rfl⟩ := whenAbsent_eq_some.1 h
      unfold startUpgrade
      split <;> exact ⟨id, id, .inl⟩
  | startLocalUpgrade i call skip =>
      obtain ⟨-, rfl⟩ := whenAbsent_eq_some.1 h
      unfold startLocalUpgrade
      split <;> exact ⟨id, id, .inl⟩
  | listAvailableUpdates i force cached =>
      obtain ⟨-, rfl⟩ := whenAbsent_eq_some.1 h
      exact ⟨id, id, .inl⟩
  | storeStagedImage i =>
      obtain ⟨-, rfl⟩ := whenAbsent_eq_some.1 h
      unfold storeStagedImage
      split <;> exact ⟨id, id, .inl⟩
  | discardStagedImage i =>
      obtain ⟨-, rfl⟩ := whenAbsent_eq_some.1 h
      unfold discardStagedImage
      split <;> exact ⟨id, id, .inl⟩
  | cancelUpgrade =>
      obtain rfl := Option.some.inj h
      unfold cancelUpgrade
      split
      · exact ⟨hcancel _, id, .inl⟩
      · exact ⟨id, id, .inl⟩
  | shutdown =>
      obtain rfl := Option.some.inj h
      unfold shutdown
      split
      · exact ⟨hcancel _, id, .inl⟩
      · exact ⟨id, id, .inl⟩
  | advance i o =>
      obtain ⟨src, g, u, r, -, hrun, rfl⟩ | ⟨-, -, -, u, j, hsame, rfl, -⟩ := advance_cases h
      · obtain ⟨hcan, hmono, hnew⟩ := runUpgrade_launched hrun k
        exact ⟨fun hk => by rwa [setJob_canceled, hcan], hmono, hnew⟩
      · refine ⟨hsame.canceled k, ?_, ?_⟩ <;> rw [setJob_launched, hsame.launched]
        · exact id
        · exact .inl

end Steps

/-! ## Runs -/

section Runs

variable {sha256 : Bytes → String} {s t : State} {as : List Action} {k : ℕ}

theorem tracked_of_run (hrun : Run (step sha256) newManager as s) (k : ℕ) : Tracked s k :=
  hrun.invariant_of_step (I := fun u => ∀ k, Tracked u k) tracked_newManager
    (fun _ _ _ hu hv => Tracked.step hu hv) k

theorem launched_mono (hrun : Run (step sha256) s as t) (h : s.launched k = true) :
    t.launched k = true :=
  hrun.invariant_of_step (I := fun u => u.launched k = true) h
    fun _ _ _ hu hv => (step_child hv k).2.1 hu

/-- Under a cancelled context no child is launched any more. -/
theorem not_launched_of_canceled (hrun : Run (step sha256) s as t) (hc : s.canceled k = true)
    (hl : s.launched k = false) : t.launched k = false := by
  have hdead : t.canceled k = true ∧ t.launched k = false := by
    refine hrun.invariant_of_step (I := fun u => u.canceled k = true ∧ u.launched k = false)
      ⟨hc, hl⟩ fun u a v hu hv => ?_
    obtain ⟨hcan, -, hnew⟩ := step_child hv k
    refine ⟨hcan hu.1, ?_⟩
    by_contra hcon
    obtain hold | hfree := hnew (by simpa using hcon)
    · rw [hu.2] at hold; cases hold
    · rw [hu.1] at hfree; cases hfree
  exact hdead.2

end Runs

/-- **When a successful cancel means no flash.** In every run, no cancel
that answered `nil` for upgrade `k` goes with a launch of its child, before
or after, exactly when no cancel is taken between the launch and the flag. -/
theorem cancel_means_no_flash_iff (sha256 : Bytes → String) {as : List Action} {t : State}
    (hrun : Run (step sha256) newManager as t) (k : ℕ) :
    (∀ bs cs u, as = bs ++ .cancelUpgrade :: cs → Run (step sha256) newManager bs u →
      u.cancelUpgradeError = none → u.upgradeCancel = some k → t.launched k = false) ↔
    (∀ bs cs u, as = bs ++ .cancelUpgrade :: cs → Run (step sha256) newManager bs u →
      ¬ Unflagged u k) := by
  constructor
  · intro h bs cs u heq hu hbad
    have hok : u.cancelUpgradeError = none := by
      simp [cancelUpgradeError, hbad.notStarted, hbad.owner]
    have hnever := h bs cs u heq hu hok hbad.owner
    -- but the child is launched by then, and stays so
    subst heq
    obtain ⟨v, hv, hrest⟩ := hrun.of_append
    obtain rfl := hv.unique hu
    rw [launched_mono hrest hbad.launched] at hnever
    cases hnever
  · intro h bs cs u heq hu hok howner
    have hns : u.upgradeStarted = false := by
      by_contra hcon
      simp only [Bool.not_eq_false] at hcon
      simp [cancelUpgradeError, hcon] at hok
    have hl : u.launched k = false := by
      by_contra hcon
      exact h bs cs u heq hu
        ((tracked_of_run hu k).unflagged howner hns (by simpa using hcon))
    -- the cancel takes the context with it
    subst heq
    obtain ⟨v, hv, hrest⟩ := hrun.of_append
    obtain rfl := hv.unique hu
    cases hrest with
    | cons hcancel hlater =>
        obtain rfl := Option.some.inj hcancel
        have hdone : v.cancelUpgrade = { v.cancel k with upgradeCancel := none, phase := .idle } := by
          simp [cancelUpgrade, hok, howner]
        refine not_launched_of_canceled hlater ?_ ?_
        · rw [hdone]; exact Function.update_self ..
        · rw [hdone]; exact hl

/-- A start call up to its download. -/
def intoDownload : List Action :=
  [.startUpgrade 0 {}, .advance 0 .ok, .advance 0 .ok, .advance 0 .ok, .advance 0 .ok]

/-- A cancel during the download. -/
theorem cancel_means_no_flash_iff_download :
    ∃ t, Run (step fun _ => "") newManager
        (intoDownload ++ .cancelUpgrade :: [.advance 0 .fail, .advance 0 .ok, .advance 0 .ok]) t ∧
      t.canceled 0 = true ∧ t.launched 0 = false := by
  have hrun : Run (step fun _ => "") newManager
      (intoDownload ++ .cancelUpgrade :: [.advance 0 .fail, .advance 0 .ok, .advance 0 .ok]) _ :=
    Run.of_foldlM rfl
  have hclear : Always (step fun _ => "")
      (fun u a => a = .cancelUpgrade → ¬ Unflagged u 0) newManager
      (intoDownload ++ .cancelUpgrade :: [.advance 0 .fail, .advance 0 .ok, .advance 0 .ok]) := by
    refine Always.cons nofun rfl (Always.cons nofun rfl (Always.cons nofun rfl
      (Always.cons nofun rfl (Always.cons nofun rfl (Always.cons ?_ rfl
      (Always.cons nofun rfl (Always.cons nofun rfl (Always.cons nofun rfl trivial))))))))
    intro _ hbad
    cases hbad.launched
  exact ⟨_, hrun, rfl, (cancel_means_no_flash_iff _ hrun 0).2
    (fun bs cs u heq hu => always_iff.1 hclear bs _ cs u heq hu rfl)
    intoDownload _ _ rfl (Run.of_foldlM rfl) rfl rfl⟩

/-- **A cancel after the launch.** The runner has launched the child and the
flag is not set: the cancel answers `nil`. -/
theorem cancel_after_launch :
    ∃ bs u t, Run (step fun _ => "") newManager bs u ∧
      u.cancelUpgradeError = none ∧ u.upgradeCancel = some 0 ∧
      Run (step fun _ => "") newManager (bs ++ [.cancelUpgrade]) t ∧ t.launched 0 = true :=
  ⟨intoDownload ++ [.advance 0 .ok, .advance 0 .ok, .advance 0 .ok, .advance 0 .ok,
    .advance 0 (.run true)], _, _, Run.of_foldlM rfl, rfl, rfl, Run.of_foldlM rfl, rfl⟩

end Sysupgrade

end OpenManet
