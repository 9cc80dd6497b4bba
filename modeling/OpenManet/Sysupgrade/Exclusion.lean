import OpenManet.Sysupgrade.Model
/-!
# One upgrade at a time

The start calls keep each other out through the phase: a call that finds
`Downloading`, `Verifying` or `Upgrading` answers `ErrBusy`. The phase is
not written where it is read. A call that passes its check spawns a
goroutine later, and that goroutine publishes its first phase later still;
between `Ready` and `Upgrading`, and after `Failed`, a live goroutine stands
behind a phase that is not a busy one; a cancelled goroutine lives on behind
`Idle`; and a release check publishes its own phases whoever is upgrading.

`WellTimed` names these moments. In a run that keeps clear of them at most
one start call or goroutine is under way, it is the one `upgradeCancel`
belongs to, and the phase says so: `Exclusive`.
-/

namespace OpenManet

namespace Sysupgrade

open State

/-! ## Requests under way -/

/-- The upgrade goroutine is live. -/
def Job.live : Job → Bool
  | .upgrade _ _ => true
  | _ => false

/-- A start call is past its check, its goroutine not spawned yet. -/
def Job.pending : Job → Bool
  | .detail | .loading _ | .lookup | .matching | .spawning _ _ => true
  | _ => false

/-- Either of the two. -/
def Job.engaged (j : Job) : Bool := j.live || j.pending

/-- The goroutine has published a busy phase, and not yet another one. -/
def Goroutine.announced : Goroutine → Bool
  | .download | .downloadFailing | .verified | .ready | .watch | .unwatched => true
  | _ => false

theorem Job.live_iff {j : Job} : j.live = true ↔ ∃ src g, j = .upgrade src g := by
  cases j <;> simp [Job.live]

theorem Job.engaged_of_live {j : Job} (h : j.live = true) : j.engaged = true := by
  simp [Job.engaged, h]

/-- What the phase and `upgradeCancel` say of the requests under way. -/
structure Exclusive (s : State) : Prop where
  one : ∀ i j, (s.jobs i).engaged = true → (s.jobs j).engaged = true → i = j
  owner : ∀ i, (s.jobs i).engaged = true → ∀ c, s.upgradeCancel = some c → c = i
  busy : ∀ i src g, s.jobs i = .upgrade src g → g.announced = true →
    s.canceled i = false → s.phase.busy = true

/-- No start call is past its check without its goroutine, and a live
goroutine has published, and was not cancelled. The call's own checks pass
where there is one. -/
structure Settled (s : State) (ownChecks : Prop) : Prop where
  noPending : ownChecks → ∀ j, (s.jobs j).pending = false
  announced : ∀ j src g, s.jobs j = .upgrade src g →
    ownChecks ∧ g.announced = true ∧ s.canceled j = false

/-- The moments at which the phase does its work: a start call meets a
settled manager, and a release check publishes while no upgrade is live. -/
def WellTimed (s : State) : Action → Prop
  | .startUpgrade _ call => Settled s (callError call = none)
  | .startLocalUpgrade _ call skip =>
    Settled s (callError call = none ∧
      ∃ image, s.staged = some image ∧ (image.preflightOK || skip) = true)
  | .advance i _ =>
    ∀ l, s.jobs i = .listing l → l ≠ .fetching → ∀ j, (s.jobs j).live = false
  | _ => True

/-- What a start call answers at its check; `nil` is `some none`. -/
def startAnswer (s : State) : Action → Option (Option Err)
  | .startUpgrade _ call => some (s.startUpgradeError call)
  | .startLocalUpgrade _ call skip =>
    some (match s.startLocalUpgradeCheck call skip with
      | .error e => some e
      | .ok _ => none)
  | _ => none

/-! ## What keeps the exclusion -/

section Preservation

variable {s t : State} {i : ℕ}

theorem Exclusive.not_engaged (h : Exclusive s) (hi : (s.jobs i).engaged = true) {k : ℕ}
    (hk : k ≠ i) : (s.jobs k).engaged = false := by
  by_contra hcon
  exact hk (h.one k i (by simpa using hcon) hi)

/-- The request under way moves on. -/
theorem Exclusive.setJob_engaged (h : Exclusive s) {j : Job} (hi : (s.jobs i).engaged = true)
    (hjobs : t.jobs = s.jobs) (hown : ∀ c, t.upgradeCancel = some c → s.upgradeCancel = some c)
    (hbusy : ∀ src g, j = .upgrade src g → g.announced = true → t.canceled i = false →
      t.phase.busy = true) : Exclusive (t.setJob i j) := by
  -- no other request is under way, before or after
  have honly : ∀ k, ((t.setJob i j).jobs k).engaged = true → k = i := by
    intro k hk
    by_contra hne
    rw [setJob_jobs_of_ne hne, hjobs, h.not_engaged hi hne] at hk
    cases hk
  refine ⟨fun k l hk hl => (honly k hk).trans (honly l hl).symm, ?_, ?_⟩
  · intro k hk c hc
    rw [honly k hk]
    exact h.owner i hi c (hown c hc)
  · intro k src g hk hg hcan
    obtain rfl := honly k (Job.engaged_of_live (Job.live_iff.2 ⟨src, g, hk⟩))
    rw [setJob_jobs_self] at hk
    exact hbusy src g hk hg hcan

/-- A request that is not under way moves on, and leaves the phase alone
unless no upgrade is live. -/
theorem Exclusive.setJob_bystander (h : Exclusive s) {j : Job} (hj : j.engaged = false)
    (hjobs : t.jobs = s.jobs) (hown : t.upgradeCancel = s.upgradeCancel)
    (hcan : t.canceled = s.canceled)
    (hphase : t.phase = s.phase ∨ ∀ j, (s.jobs j).live = false) : Exclusive (t.setJob i j) := by
  have hother : ∀ k, ((t.setJob i j).jobs k).engaged = true →
      (t.setJob i j).jobs k = s.jobs k := by
    intro k hk
    by_cases hki : k = i
    · rw [hki, setJob_jobs_self, hj] at hk; cases hk
    · rw [setJob_jobs_of_ne hki, hjobs]
  refine ⟨?_, ?_, ?_⟩
  · intro k l hk hl
    exact h.one k l (hother k hk ▸ hk) (hother l hl ▸ hl)
  · intro k hk c hc
    exact h.owner k (hother k hk ▸ hk) c (hown ▸ hc)
  · intro k src g hk hg hc
    have hlive : ((t.setJob i j).jobs k).live = true := Job.live_iff.2 ⟨src, g, hk⟩
    have heq := hother k (Job.engaged_of_live hlive)
    rw [heq] at hk hlive
    obtain hp | hnone := hphase
    · rw [setJob_phase, hp]; exact h.busy k src g hk hg (hcan ▸ hc)
    · rw [hnone k] at hlive; cases hlive

/-- A start call passes its check where nothing is under way. -/
theorem Exclusive.setJob_started (hnone : ∀ k, (s.jobs k).engaged = false) {j : Job}
    (hj : j.live = false) :
    Exclusive ({ s with upgradeCancel := some i, upgradeStarted := false }.setJob i j) := by
  have honly : ∀ k, (({ s with upgradeCancel := some i, upgradeStarted := false }.setJob i
      j).jobs k).engaged = true → k = i := by
    intro k hk
    by_contra hne
    rw [setJob_jobs_of_ne hne, hnone k] at hk
    cases hk
  refine ⟨fun k l hk hl => (honly k hk).trans (honly l hl).symm, ?_, ?_⟩
  · intro k hk c hc
    rw [honly k hk]
    exact (Option.some.inj hc).symm
  · intro k src g hk _ _
    have hlive := Job.live_iff.2 ⟨src, g, hk⟩
    rw [honly k (Job.engaged_of_live hlive), setJob_jobs_self, hj] at hlive
    cases hlive

/-- The context `upgradeCancel` belongs to is cancelled: a live goroutine is
the one it belongs to. -/
theorem Exclusive.canceled (h : Exclusive s) {c : ℕ} (hc : s.upgradeCancel = some c)
    (p : Phase) : Exclusive { s.cancel c with upgradeCancel := none, phase := p } := by
  refine ⟨h.one, fun _ _ _ hcon => by simp at hcon, ?_⟩
  intro k src g hk _ hcan
  have hlive : (s.jobs k).live = true := Job.live_iff.2 ⟨src, g, hk⟩
  obtain rfl := h.owner k (Job.engaged_of_live hlive) c hc
  simp [cancel] at hcan

/-- A goroutine's step: it gives up `upgradeCancel` at most, and where it is
announced the phase is busy. -/
theorem runUpgrade_exclusion {g : Goroutine} {o : Outcome} {r : Option Goroutine}
    (h : s.runUpgrade i g o = some (t, r)) :
    t.jobs = s.jobs ∧ t.canceled = s.canceled ∧
    (∀ c, t.upgradeCancel = some c → s.upgradeCancel = some c) ∧
    ((g.announced = true → s.phase.busy = true) →
      ∀ g', r = some g' → g'.announced = true → t.phase.busy = true) := by
  cases g <;> cases o <;> simp only [runUpgrade, Option.some.injEq, Prod.mk.injEq,
    Option.ite_none_left_eq_some, reduceCtorEq] at h
  case launch.run child =>
    obtain ⟨-, rfl, rfl⟩ := h
    exact ⟨rfl, rfl, fun _ hc => hc, by simp [Goroutine.announced]⟩
  all_goals
    obtain ⟨rfl, rfl⟩ := h
    refine ⟨rfl, rfl, ?_, ?_⟩
    · simp
    · simp [Goroutine.announced, Phase.busy]

/-- **A step of a request under way, or of another.** -/
theorem Exclusive.advance {sha256 : Bytes → String} {o : Outcome} (h : Exclusive s)
    (htimed : WellTimed s (.advance i o)) (hstep : s.advance sha256 i o = some t) :
    Exclusive t := by
  unfold State.advance at hstep
  cases hjob : s.jobs i with
  | absent | returned e => simp [hjob] at hstep
  | detail | lookup | matching | spawning image skip =>
      have hi : (s.jobs i).engaged = true := by rw [hjob]; rfl
      rw [hjob] at hstep
      cases o <;> simp only [Option.some.injEq, reduceCtorEq] at hstep
      all_goals
        subst hstep
        exact h.setJob_engaged hi rfl (fun _ hc => hc) (by simp [Goroutine.announced])
  | loading l =>
      have hi : (s.jobs i).engaged = true := by rw [hjob]; rfl
      simp only [hjob] at hstep
      split at hstep
      case h_4 => cases hstep
      all_goals
        rename_i hload
        obtain ⟨p, rfl, -⟩ := loadReleases_eq hload
        obtain rfl := Option.some.inj hstep
        exact h.setJob_engaged hi rfl (fun _ hc => hc) (by simp)
  | upgrade source g =>
      have hi : (s.jobs i).engaged = true := by rw [hjob]; rfl
      simp only [hjob] at hstep
      split at hstep
      · rename_i u r hrun
        obtain ⟨hjobs, hcan, hown, hann⟩ := runUpgrade_exclusion hrun
        obtain rfl := Option.some.inj hstep
        refine h.setJob_engaged hi hjobs hown fun src g' heq hg' hc => ?_
        have hr : r = some g' := by
          cases r with
          | none => cases heq
          | some g₂ => cases heq; rfl
        exact hann (fun hg => h.busy i source g hjob hg (hcan ▸ hc)) g' hr hg'
      · cases hstep
  | listing l =>
      -- a release check publishes only while no upgrade is live
      have hquiet : ∀ p, (l = .fetching → p = s.phase) →
          p = s.phase ∨ ∀ j, (s.jobs j).live = false := by
        intro p hp
        by_cases hl : l = .fetching
        · exact .inl (hp hl)
        · exact .inr (htimed l hjob hl)
      simp only [hjob] at hstep
      split at hstep
      case h_3 => cases hstep
      all_goals
        rename_i hload
        obtain ⟨p, rfl, hp⟩ := loadReleases_eq hload
        obtain rfl := Option.some.inj hstep
        exact h.setJob_bystander rfl rfl rfl rfl (hquiet p hp)
  | upload u =>
      simp only [hjob] at hstep
      split at hstep
      · rename_i w r hup
        have hsame := runUpload_control hup
        obtain rfl := Option.some.inj hstep
        refine h.setJob_bystander ?_ hsame.jobs hsame.upgradeCancel hsame.canceled
          (.inl hsame.phase)
        cases r <;> rfl
      · cases hstep
  | discarding =>
      simp only [hjob] at hstep
      split at hstep
      case h_3 => cases hstep
      all_goals
        obtain rfl := Option.some.inj hstep
        exact h.setJob_bystander rfl rfl rfl rfl (.inl rfl)

theorem not_engaged_of_not_live {j : Job} (hlive : j.live = false) (hpending : j.pending = false) :
    j.engaged = false := by
  simp [Job.engaged, hlive, hpending]

/-- A call that meets a settled manager and passes its check meets one with
nothing under way. -/
theorem Exclusive.none_engaged {own : Prop} (h : Exclusive s) (hsettled : Settled s own)
    (hown : own) (hfree : s.phase.busy = false) (k : ℕ) : (s.jobs k).engaged = false := by
  refine not_engaged_of_not_live ?_ (hsettled.noPending hown k)
  by_contra hlive
  obtain ⟨src, g, hk⟩ := Job.live_iff.1 (by simpa using hlive)
  obtain ⟨-, hann, hcan⟩ := hsettled.announced k src g hk
  rw [h.busy k src g hk hann hcan] at hfree
  cases hfree

theorem Exclusive.startUpgrade {call : StartCall} (h : Exclusive s)
    (hsettled : Settled s (callError call = none)) : Exclusive (s.startUpgrade i call) := by
  unfold State.startUpgrade
  split
  · exact h.setJob_bystander rfl rfl rfl rfl (.inl rfl)
  · rename_i hpass
    unfold startUpgradeError at hpass
    split at hpass
    · cases hpass
    · rename_i hcall
      have hfree : s.phase.busy = false := by simpa using hpass
      exact Exclusive.setJob_started (h.none_engaged hsettled hcall hfree) rfl

theorem Exclusive.startLocalUpgrade {call : StartCall} {skip : Bool} (h : Exclusive s)
    (hsettled : Settled s (callError call = none ∧
      ∃ image, s.staged = some image ∧ (image.preflightOK || skip) = true)) :
    Exclusive (s.startLocalUpgrade i call skip) := by
  unfold State.startLocalUpgrade
  split
  · exact h.setJob_bystander rfl rfl rfl rfl (.inl rfl)
  · rename_i image hok
    obtain ⟨hcall, hstaged, hpre, hfree⟩ := startLocalUpgradeCheck_eq_ok.1 hok
    exact Exclusive.setJob_started
      (h.none_engaged hsettled ⟨hcall, image, hstaged, hpre⟩ hfree) rfl

theorem Exclusive.cancelUpgrade (h : Exclusive s) : Exclusive s.cancelUpgrade := by
  unfold State.cancelUpgrade
  split
  · rename_i c _ hc
    exact h.canceled hc .idle
  · exact h

theorem Exclusive.shutdown (h : Exclusive s) : Exclusive s.shutdown := by
  unfold State.shutdown
  split
  · rename_i c hc
    exact h.canceled hc s.phase
  · exact h

/-- **One step.** -/
theorem Exclusive.step {sha256 : Bytes → String} {a : Action} (h : Exclusive s)
    (htimed : WellTimed s a) (hstep : Sysupgrade.step sha256 s a = some t) : Exclusive t := by
  cases a with
  | startUpgrade i call =>
      obtain ⟨-, rfl⟩ := whenAbsent_eq_some.1 hstep
      exact h.startUpgrade htimed
  | startLocalUpgrade i call skip =>
      obtain ⟨-, rfl⟩ := whenAbsent_eq_some.1 hstep
      exact h.startLocalUpgrade htimed
  | listAvailableUpdates i force cached =>
      obtain ⟨-, rfl⟩ := whenAbsent_eq_some.1 hstep
      refine h.setJob_bystander ?_ rfl rfl rfl (.inl rfl)
      split <;> rfl
  | storeStagedImage i =>
      obtain ⟨-, rfl⟩ := whenAbsent_eq_some.1 hstep
      unfold storeStagedImage
      split <;> exact h.setJob_bystander rfl rfl rfl rfl (.inl rfl)
  | discardStagedImage i =>
      obtain ⟨-, rfl⟩ := whenAbsent_eq_some.1 hstep
      unfold discardStagedImage
      split <;> exact h.setJob_bystander rfl rfl rfl rfl (.inl rfl)
  | cancelUpgrade =>
      obtain rfl := Option.some.inj hstep
      exact h.cancelUpgrade
  | shutdown =>
      obtain rfl := Option.some.inj hstep
      exact h.shutdown
  | advance i o => exact h.advance htimed hstep

theorem exclusive_newManager : Exclusive newManager := by
  refine ⟨fun i j hi => ?_, fun i hi => ?_, fun i src g hi => ?_⟩ <;> cases hi

/-- **A start call that meets a live upgrade is answered `ErrBusy`.** -/
theorem Exclusive.startAnswer_busy {a : Action} (h : Exclusive s) (htimed : WellTimed s a)
    (hlive : ∃ j, (s.jobs j).live = true) {r : Option Err} (hr : startAnswer s a = some r) :
    r = some .busy := by
  obtain ⟨j, hj⟩ := hlive
  obtain ⟨src, g, hjob⟩ := Job.live_iff.1 hj
  cases a with
  | startUpgrade i call =>
      obtain ⟨hcall, hann, hcan⟩ := htimed.announced j src g hjob
      have hbusy := h.busy j src g hjob hann hcan
      simpa [startAnswer, startUpgradeError, hcall, hbusy] using hr.symm
  | startLocalUpgrade i call skip =>
      obtain ⟨⟨hcall, image, hstaged, hpre⟩, hann, hcan⟩ := htimed.announced j src g hjob
      have hbusy := h.busy j src g hjob hann hcan
      have hnot : (!image.preflightOK && !skip) = false := by rw [← Bool.not_or, hpre]; rfl
      simpa [startAnswer, startLocalUpgradeCheck, hcall, hstaged, hnot, hbusy] using hr.symm
  | _ => cases hr

end Preservation

/-! ## Runs -/

/-- **At most one upgrade at a time**, in every run that is well timed: in
the state it reaches no two upgrade goroutines are live, and on the way
every start call made while one was live was answered `ErrBusy`. -/
theorem one_upgrade_at_a_time (sha256 : Bytes → String) {as : List Action} {s : State}
    (hrun : Run (step sha256) newManager as s)
    (htimed : Always (step sha256) WellTimed newManager as) :
    (∀ i j, (s.jobs i).live = true → (s.jobs j).live = true → i = j) ∧
    Always (step sha256) (fun u a => (∃ j, (u.jobs j).live = true) →
      ∀ r, startAnswer u a = some r → r = some .busy) newManager as := by
  have hstep : ∀ u a v, Exclusive u → WellTimed u a → step sha256 u a = some v → Exclusive v :=
    fun _ _ _ hu hta hv => hu.step hta hv
  have hexcl := hrun.invariant htimed exclusive_newManager hstep
  exact ⟨fun i j hi hj =>
      hexcl.one i j (Job.engaged_of_live hi) (Job.engaged_of_live hj),
    htimed.of_invariant exclusive_newManager hstep fun _ _ hu hta hlive _ hr =>
      hu.startAnswer_busy hta hlive hr⟩

/-- A second call while the first one's download runs. -/
def secondCall : List Action :=
  [.startUpgrade 0 {}, .advance 0 .ok, .advance 0 .ok, .advance 0 .ok, .advance 0 .ok,
    .startUpgrade 1 {}]

theorem one_upgrade_at_a_time_second_call :
    ∃ s, Run (step fun _ => "") newManager secondCall s ∧
      (s.jobs 0).live = true ∧ s.jobs 1 = .returned (some .busy) ∧
      ∀ i j, (s.jobs i).live = true → (s.jobs j).live = true → i = j := by
  have htimed : Always (step fun _ => "") WellTimed newManager secondCall := by
    refine Always.cons ⟨fun _ _ => rfl, fun j src g hj => by cases hj⟩ rfl ?_
    refine Always.cons (fun l hl => by cases hl) rfl ?_
    refine Always.cons (fun l hl => by cases hl) rfl ?_
    refine Always.cons (fun l hl => by cases hl) rfl ?_
    refine Always.cons (fun l hl => by cases hl) rfl ?_
    refine Always.cons ⟨fun _ j => ?_, fun j src g hj => ?_⟩ rfl trivial
    · cases j <;> rfl
    · cases j with
      | zero => cases hj; exact ⟨rfl, rfl, rfl⟩
      | succ j => cases hj
  have hrun : Run (step fun _ => "") newManager secondCall _ := Run.of_foldlM rfl
  exact ⟨_, hrun, rfl, rfl, (one_upgrade_at_a_time _ hrun htimed).1⟩

/-- **Two calls, two flashes.** The second call is made before the goroutine
of the first has published its phase, and both go on. -/
theorem two_upgrades_live :
    ∃ s, Run (step fun _ => "") newManager
        [.startUpgrade 0 {}, .advance 0 .ok, .advance 0 .ok, .advance 0 .ok,
          .startUpgrade 1 {}, .advance 1 .ok, .advance 1 .ok, .advance 1 .ok] s ∧
      (s.jobs 0).live = true ∧ (s.jobs 1).live = true :=
  ⟨_, Run.of_foldlM rfl, rfl, rfl⟩

end Sysupgrade

end OpenManet
