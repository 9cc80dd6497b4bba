import OpenManet.Sysupgrade.Cancel
import OpenManet.Sysupgrade.Exclusion
/-!
# The cancel handle of a failed start

`StartUpgrade` writes `upgradeCancel` and clears `upgradeStarted` with its
busy check, and goes on to find the release and match an asset. When either
fails it cancels its context and returns the error; the two fields stay as
it wrote them. A cancel after that finds a handle and answers `nil`, with no
upgrade to cancel.

The calls are taken here one after the other: a start call runs to its
return before anything else happens, and the goroutines go on between the
calls, a step at a time. The rest of the manager's requests may go on too.
-/

namespace OpenManet

namespace Sysupgrade

open State

variable {sha256 : Bytes → String} {s t u : State} {i k : ℕ}

/-! ## A start call, run to its return -/

/-- The steps of a call until it is back or has spawned its goroutine, given
the answers it gets. -/
def runCall (sha256 : Bytes → String) (i : ℕ) : State → List Outcome → Option State
  | s, [] => if (s.jobs i).pending then none else some s
  | s, o :: os =>
    if (s.jobs i).pending then (s.advance sha256 i o).bind fun s => runCall sha256 i s os else none

/-- What happens to the manager: a start call to its return, with the
answers it gets, or one step of anything else. -/
inductive Event where
  | startUpgrade (i : ℕ) (call : StartCall) (answers : List Outcome)
  | startLocalUpgrade (i : ℕ) (call : StartCall) (skipPreflight : Bool) (answers : List Outcome)
  | act (a : Action)
deriving DecidableEq, Repr

/-- The action begins a start call. -/
def Action.starts : Action → Bool
  | .startUpgrade _ _ => true
  | .startLocalUpgrade _ _ _ => true
  | _ => false

/-- One event. -/
def perform (sha256 : Bytes → String) (s : State) : Event → Option State
  | .startUpgrade i call answers =>
    (step sha256 s (.startUpgrade i call)).bind fun s => runCall sha256 i s answers
  | .startLocalUpgrade i call skip answers =>
    (step sha256 s (.startLocalUpgrade i call skip)).bind fun s => runCall sha256 i s answers
  | .act a => if a.starts then none else step sha256 s a

/-- The call has returned an error. -/
def Job.failed : Job → Bool
  | .returned (some _) => true
  | _ => false

/-- A start call that returns an error leaves the two fields, and what the
next cancel would answer, as they were. -/
def LeavesHandle (sha256 : Bytes → String) (s : State) (ev : Event) : Prop :=
  ∀ i t, (∃ call os, ev = .startUpgrade i call os) ∨
      (∃ call skip os, ev = .startLocalUpgrade i call skip os) →
    perform sha256 s ev = some t → (t.jobs i).failed = true →
      t.upgradeCancel = s.upgradeCancel ∧ t.upgradeStarted = s.upgradeStarted ∧
        t.cancelUpgradeError = s.cancelUpgradeError

/-- A cancel that answers `nil` finds a live upgrade goroutine whose child
has not been launched. -/
def CancelsLive (s : State) (ev : Event) : Prop :=
  ev = .act .cancelUpgrade → s.cancelUpgradeError = none →
    ∃ k, (s.jobs k).live = true ∧ s.launched k = false

/-- Where the handle is a live upgrade's: a start call past its checks finds
its release and its asset, and a cancel does not come between the launch of
a child and the flag, unless another upgrade is live before its launch. -/
def Handled (s : State) : Event → Prop
  | .startUpgrade _ call answers => s.startUpgradeError call = none → .fail ∉ answers
  | .act .cancelUpgrade => ∀ k, Unflagged s k → ∃ j, (s.jobs j).live = true ∧ s.launched j = false
  | _ => True

/-! ## What a call can do -/

/-- A step of a start call past its checks: it goes on, spawns its
goroutine, or returns an error, the last two steps after a failure. -/
inductive CallStep (before : Job) (o : Outcome) : Job → Prop
  | goes {j : Job} (hj : j.pending = true) (hfail : j = .loading .failing ↔ o = .fail)
      (hbefore : before ≠ .loading .failing) : CallStep before o j
  | spawns {source : Source} {g : Goroutine} (ho : o ≠ .fail)
      (hbefore : before ≠ .loading .failing) : CallStep before o (.upgrade source g)
  | errs {e : Err} (h : o = .fail ∨ before = .loading .failing) :
      CallStep before o (.returned (some e))

theorem advance_pending {o : Outcome} (hp : (s.jobs i).pending = true)
    (h : s.advance sha256 i o = some t) :
    ∃ u j, SameChild s u ∧ t = u.setJob i j ∧ CallStep (s.jobs i) o j := by
  have hself : SameChild s s := (SameControl.refl s).sameChild
  unfold advance at h
  cases hjob : s.jobs i with
  | absent => rw [hjob] at hp; cases hp
  | upgrade source g => rw [hjob] at hp; cases hp
  | listing l => rw [hjob] at hp; cases hp
  | upload u => rw [hjob] at hp; cases hp
  | discarding => rw [hjob] at hp; cases hp
  | returned e => rw [hjob] at hp; cases hp
  | detail =>
      rw [hjob] at h
      cases o <;> simp only [Option.some.injEq, reduceCtorEq] at h
      · exact ⟨_, _, hself, h.symm, .goes rfl (by simp) (by simp)⟩
      · exact ⟨_, _, hself.cancel i, h.symm, .errs (.inl rfl)⟩
      · exact ⟨_, _, hself, h.symm, .goes rfl (by simp) (by simp)⟩
  | lookup =>
      rw [hjob] at h
      cases o <;> simp only [Option.some.injEq, reduceCtorEq] at h
      · exact ⟨_, _, hself, h.symm, .goes rfl (by simp) (by simp)⟩
      · exact ⟨_, _, hself.cancel i, h.symm, .errs (.inl rfl)⟩
  | matching =>
      rw [hjob] at h
      cases o <;> simp only [Option.some.injEq, reduceCtorEq] at h
      · exact ⟨_, _, hself, h.symm, .spawns (by simp) (by simp)⟩
      · exact ⟨_, _, hself.cancel i, h.symm, .errs (.inl rfl)⟩
  | spawning image skip =>
      rw [hjob] at h
      cases o <;> simp only [Option.some.injEq, reduceCtorEq] at h
      exact ⟨_, _, hself, h.symm, .spawns (by simp) (by simp)⟩
  | loading l =>
      simp only [hjob] at h
      cases l <;> cases o <;> simp only [loadReleases, Option.some.injEq, reduceCtorEq] at h
      · exact ⟨_, _, sameChild_phase _, h.symm, .goes rfl (by simp) (by simp)⟩
      · exact ⟨_, _, hself, h.symm, .goes rfl (by simp) (by simp)⟩
      · exact ⟨_, _, hself, h.symm, .goes rfl (by simp) (by simp)⟩
      · exact ⟨_, _, (sameChild_phase _).cancel i, h.symm, .errs (.inr rfl)⟩
      · exact ⟨_, _, sameChild_phase _, h.symm, .goes rfl (by simp) (by simp)⟩

/-- What a call past its checks comes back with: its own handle, the flag as
it cleared it, and an error exactly if something failed on the way. -/
structure CameBack (s t : State) (i : ℕ) (failed : Prop) : Prop where
  upgradeCancel : t.upgradeCancel = s.upgradeCancel
  upgradeStarted : t.upgradeStarted = s.upgradeStarted
  jobs : ∀ k, k ≠ i → t.jobs k = s.jobs k
  settled : (t.jobs i).live = true ∨ (t.jobs i).failed = true
  failed_iff : (t.jobs i).failed = true ↔ failed

theorem runCall_pending {os : List Outcome} (hp : (s.jobs i).pending = true)
    (h : runCall sha256 i s os = some t) :
    CameBack s t i (.fail ∈ os ∨ s.jobs i = .loading .failing) := by
  induction os generalizing s with
  | nil => simp [runCall, hp] at h
  | cons o os ih =>
      rw [runCall, if_pos hp] at h
      obtain ⟨v, hv, hrest⟩ := Option.bind_eq_some_iff.1 h
      obtain ⟨u, j, hsame, rfl, hcall⟩ := advance_pending hp hv
      have hself : (u.setJob i j).jobs i = j := setJob_jobs_self
      have hothers : ∀ k, k ≠ i → (u.setJob i j).jobs k = s.jobs k := fun k hk => by
        rw [setJob_jobs_of_ne hk, hsame.jobs]
      -- a call that is back takes no more answers
      have hend : j.pending = false → os = [] ∧ t = u.setJob i j := by
        intro hj
        cases os with
        | nil =>
            rw [runCall, hself, hj, if_neg (by simp)] at hrest
            exact ⟨rfl, (Option.some.inj hrest).symm⟩
        | cons o' os =>
            rw [runCall, hself, hj, if_neg (by simp)] at hrest
            cases hrest
      cases hcall with
      | goes hj hfail hbefore =>
          have hback := ih (by rw [hself]; exact hj) hrest
          refine ⟨hback.upgradeCancel.trans hsame.upgradeCancel,
            hback.upgradeStarted.trans hsame.upgradeStarted,
            fun k hk => (hback.jobs k hk).trans (hothers k hk), hback.settled, ?_⟩
          rw [hback.failed_iff, hself, hfail, List.mem_cons]
          simp only [hbefore, or_false]
          exact ⟨fun h => h.elim .inr fun h => .inl h.symm,
            fun h => h.elim (fun h => .inr h.symm) .inl⟩
      | spawns ho hbefore =>
          obtain ⟨rfl, rfl⟩ := hend rfl
          refine ⟨hsame.upgradeCancel, hsame.upgradeStarted, hothers, .inl ?_, ?_⟩
          · rw [hself]
            rfl
          · rw [hself]
            simp [Job.failed, hbefore, Ne.symm ho]
      | errs hfailed =>
          obtain ⟨rfl, rfl⟩ := hend rfl
          refine ⟨hsame.upgradeCancel, hsame.upgradeStarted, hothers, .inr ?_, ?_⟩
          · rw [hself]
            rfl
          · rw [hself]
            refine iff_of_true rfl (hfailed.imp_left fun h => ?_)
            rw [h]
            exact List.mem_cons_self

/-- A call that is back does nothing more. -/
theorem runCall_settled {os : List Outcome} (hp : (s.jobs i).pending = false)
    (h : runCall sha256 i s os = some t) : t = s ∧ os = [] := by
  cases os with
  | nil =>
      rw [runCall, hp, if_neg (by simp)] at h
      exact ⟨(Option.some.inj h).symm, rfl⟩
  | cons o os =>
      rw [runCall, hp, if_neg (by simp)] at h
      cases h

/-- What a start call does about the handle: refused by a check it leaves
everything to do with it alone, and past its checks it is its own. -/
inductive Started (s t : State) (i : ℕ) (failed : Prop) : Prop
  | refused (hcancel : t.upgradeCancel = s.upgradeCancel)
      (hstarted : t.upgradeStarted = s.upgradeStarted) (hjobs : ∀ k, k ≠ i → t.jobs k = s.jobs k)
      (hjob : (t.jobs i).failed = true)
  | taken (hcancel : t.upgradeCancel = some i) (hstarted : t.upgradeStarted = false)
      (hjobs : ∀ k, k ≠ i → t.jobs k = s.jobs k)
      (hjob : (t.jobs i).live = true ∨ (t.jobs i).failed = true)
      (hfailed : (t.jobs i).failed = true ↔ failed)

theorem perform_startUpgrade {call : StartCall} {os : List Outcome}
    (h : perform sha256 s (.startUpgrade i call os) = some t) :
    s.jobs i = .absent ∧ ((s.startUpgradeError call ≠ none ∧ Started s t i False ∧
        t.upgradeCancel = s.upgradeCancel) ∨
      (s.startUpgradeError call = none ∧ Started s t i (.fail ∈ os) ∧ t.upgradeCancel = some i)) := by
  obtain ⟨u, hu, hcall⟩ := Option.bind_eq_some_iff.1 h
  obtain ⟨habs, rfl⟩ := whenAbsent_eq_some.1 hu
  refine ⟨habs, ?_⟩
  unfold State.startUpgrade at hcall
  cases herr : s.startUpgradeError call with
  | some e =>
      rw [herr] at hcall
      dsimp only at hcall
      obtain ⟨rfl, -⟩ := runCall_settled (by rw [setJob_jobs_self]; rfl) hcall
      refine .inl ⟨by simp, .refused rfl rfl (fun k hk => setJob_jobs_of_ne hk) ?_, rfl⟩
      rw [setJob_jobs_self]
      rfl
  | none =>
      rw [herr] at hcall
      dsimp only at hcall
      have hback := runCall_pending (by rw [setJob_jobs_self]; rfl) hcall
      have hfailed := hback.failed_iff
      rw [setJob_jobs_self] at hfailed
      simp only [reduceCtorEq, or_false] at hfailed
      refine .inr ⟨rfl, .taken hback.upgradeCancel hback.upgradeStarted (fun k hk => ?_) hback.settled
        hfailed, hback.upgradeCancel⟩
      rw [hback.jobs k hk, setJob_jobs_of_ne hk]

theorem perform_startLocalUpgrade {call : StartCall} {skip : Bool} {os : List Outcome}
    (h : perform sha256 s (.startLocalUpgrade i call skip os) = some t) :
    s.jobs i = .absent ∧ Started s t i False := by
  obtain ⟨u, hu, hcall⟩ := Option.bind_eq_some_iff.1 h
  obtain ⟨habs, rfl⟩ := whenAbsent_eq_some.1 hu
  refine ⟨habs, ?_⟩
  unfold State.startLocalUpgrade at hcall
  cases hcheck : s.startLocalUpgradeCheck call skip with
  | error e =>
      rw [hcheck] at hcall
      dsimp only at hcall
      obtain ⟨rfl, -⟩ := runCall_settled (by rw [setJob_jobs_self]; rfl) hcall
      refine .refused rfl rfl (fun k hk => setJob_jobs_of_ne hk) ?_
      rw [setJob_jobs_self]
      rfl
  | ok image =>
      rw [hcheck] at hcall
      dsimp only at hcall
      -- nothing is left to fail: the goroutine is spawned
      have hspawned : os = [.ok] := by
        cases os with
        | nil => rw [runCall, setJob_jobs_self] at hcall; cases hcall
        | cons o os =>
            rw [runCall, setJob_jobs_self,
              if_pos (show (Job.spawning image skip).pending = true from rfl)] at hcall
            obtain ⟨v, hv, hrest⟩ := Option.bind_eq_some_iff.1 hcall
            unfold State.advance at hv
            rw [setJob_jobs_self] at hv
            cases o <;> simp only [Option.some.injEq, reduceCtorEq] at hv
            subst hv
            rw [(runCall_settled (by rw [setJob_jobs_self]; rfl) hrest).2]
      have hback := runCall_pending (by rw [setJob_jobs_self]; rfl) hcall
      have hfailed := hback.failed_iff
      rw [setJob_jobs_self, hspawned] at hfailed
      refine .taken hback.upgradeCancel hback.upgradeStarted (fun k hk => ?_) hback.settled
        (hfailed.trans (by simp))
      rw [hback.jobs k hk, setJob_jobs_of_ne hk]

/-! ## Whose the handle is -/

/-- The handle belongs to a request of this kind. -/
def HandleOf (p : Job → Bool) (s : State) : Prop :=
  ∀ k, s.upgradeCancel = some k → p (s.jobs k) = true

/-- A start call leaves a handle that is of this kind, if its own would be. -/
theorem HandleOf.started {p : Job → Bool} {failed : Prop} (h : HandleOf p s)
    (habs : s.jobs i = .absent) (hp : p .absent = false) (hstart : Started s t i failed)
    (hown : t.upgradeCancel = some i → p (t.jobs i) = true) : HandleOf p t := by
  intro k hk
  cases hstart with
  | refused hcancel hstarted hjobs hjob =>
      rw [hcancel] at hk
      have hne : k ≠ i := by
        rintro rfl
        have hkind := h k hk
        rw [habs, hp] at hkind
        cases hkind
      rw [hjobs k hne]
      exact h k hk
  | taken hcancel hstarted hjobs hjob hfailed =>
      obtain rfl : i = k := Option.some.inj (hcancel.symm.trans hk)
      exact hown hk

/-- A goroutine's step drops the handle at its end, and keeps it before. -/
theorem runUpgrade_handle {g : Goroutine} {o : Outcome} {r : Option Goroutine}
    (h : s.runUpgrade i g o = some (t, r)) :
    t.jobs = s.jobs ∧ (t.upgradeCancel = none ∨
      (t.upgradeCancel = s.upgradeCancel ∧ r.isSome = true)) := by
  cases g <;> cases o <;> simp only [State.runUpgrade, Option.some.injEq, Prod.mk.injEq,
    Option.ite_none_left_eq_some, reduceCtorEq] at h
  case launch.run child =>
    obtain ⟨-, rfl, rfl⟩ := h
    exact ⟨rfl, .inr ⟨rfl, rfl⟩⟩
  case published.ok | unwatched.ok =>
    obtain ⟨rfl, rfl⟩ := h
    exact ⟨rfl, .inl rfl⟩
  all_goals
    obtain ⟨rfl, rfl⟩ := h
    exact ⟨rfl, .inr ⟨rfl, rfl⟩⟩

/-- What the steps between the calls do about the handle: where they leave
one, it was there, and its request is still live or still back. -/
theorem act_handle {a : Action} (hstarts : a.starts = false) (h : step sha256 s a = some t)
    (hk : t.upgradeCancel = some k) :
    s.upgradeCancel = some k ∧ ((s.jobs k).live = true → (t.jobs k).live = true) ∧
      ((s.jobs k).failed = true → (t.jobs k).failed = true) := by
  -- a request that is new is neither live nor back
  have hnew : ∀ {u : State} {i : ℕ} {j : Job}, s.jobs i = .absent → u.jobs = s.jobs →
      ((s.jobs k).live = true → ((u.setJob i j).jobs k).live = true) ∧
        ((s.jobs k).failed = true → ((u.setJob i j).jobs k).failed = true) := by
    intro u i j habs hjobs
    by_cases hki : k = i
    · rw [hki, habs]
      exact ⟨nofun, nofun⟩
    · rw [setJob_jobs_of_ne hki, hjobs]
      exact ⟨id, id⟩
  cases a with
  | startUpgrade i call => cases hstarts
  | startLocalUpgrade i call skip => cases hstarts
  | listAvailableUpdates i force cached =>
      obtain ⟨habs, rfl⟩ := whenAbsent_eq_some.1 h
      exact ⟨hk, hnew habs rfl⟩
  | storeStagedImage i =>
      obtain ⟨habs, rfl⟩ := whenAbsent_eq_some.1 h
      revert hk
      unfold storeStagedImage
      split <;> exact fun hk => ⟨hk, hnew habs rfl⟩
  | discardStagedImage i =>
      obtain ⟨habs, rfl⟩ := whenAbsent_eq_some.1 h
      revert hk
      unfold discardStagedImage
      split <;> exact fun hk => ⟨hk, hnew habs rfl⟩
  | cancelUpgrade =>
      obtain rfl := Option.some.inj h
      revert hk
      unfold cancelUpgrade
      split
      · exact nofun
      · exact fun hk => ⟨hk, id, id⟩
  | shutdown =>
      obtain rfl := Option.some.inj h
      revert hk
      unfold shutdown
      split
      · exact nofun
      · exact fun hk => ⟨hk, id, id⟩
  | advance i o =>
      obtain ⟨src, g, u, r, hjob, hrun, rfl⟩ | ⟨-, hup, hret, u, j, hsame, rfl, -⟩ :=
        advance_cases h
      · obtain ⟨hjobs, hnone | ⟨hcancel, hr⟩⟩ := runUpgrade_handle hrun
        · rw [setJob_upgradeCancel, hnone] at hk
          cases hk
        · refine ⟨hcancel ▸ hk, ?_⟩
          by_cases hki : k = i
          · obtain ⟨g', rfl⟩ := Option.isSome_iff_exists.1 hr
            rw [hki, setJob_jobs_self, hjob]
            exact ⟨fun _ => rfl, nofun⟩
          · rw [setJob_jobs_of_ne hki, hjobs]
            exact ⟨id, id⟩
      · refine ⟨hsame.upgradeCancel ▸ hk, ?_⟩
        by_cases hki : k = i
        · rw [hki]
          refine ⟨fun hlive => ?_, fun hfailed => ?_⟩
          · obtain ⟨src, g, hg⟩ := Job.live_iff.1 hlive
            exact absurd hg (hup src g)
          · cases hj : s.jobs i with
            | returned e => exact absurd hj (hret e)
            | _ => rw [hj] at hfailed; cases hfailed
        · rw [setJob_jobs_of_ne hki, hsame.jobs]
          exact ⟨id, id⟩

/-- A live upgrade's, or a start call's that has failed. -/
def Job.held (j : Job) : Bool := j.live || j.failed

theorem Job.held_iff {j : Job} : j.held = true ↔ j.live = true ∨ j.failed = true := by
  simp [Job.held]

theorem Started.held {failed : Prop} (hstart : Started s t i failed) : (t.jobs i).held = true := by
  cases hstart with
  | refused hcancel hstarted hjobs hjob => exact Job.held_iff.2 (.inr hjob)
  | taken hcancel hstarted hjobs hjob hfailed => exact Job.held_iff.2 hjob

/-- **One event, whatever it is.** The handle is a live upgrade's, or a
failed call's. -/
theorem HandleOf.perform_held {ev : Event} (h : HandleOf Job.held s)
    (hev : perform sha256 s ev = some t) : HandleOf Job.held t := by
  cases ev with
  | startUpgrade i call os =>
      obtain ⟨habs, ⟨-, hstart, -⟩ | ⟨-, hstart, -⟩⟩ := perform_startUpgrade hev
      · exact h.started habs rfl hstart fun _ => hstart.held
      · exact h.started habs rfl hstart fun _ => hstart.held
  | startLocalUpgrade i call skip os =>
      obtain ⟨habs, hstart⟩ := perform_startLocalUpgrade hev
      exact h.started habs rfl hstart fun _ => hstart.held
  | act a =>
      obtain ⟨hstarts, hstep⟩ := Option.ite_none_left_eq_some.1 hev
      intro k hk
      obtain ⟨hk', hlive, hfailed⟩ := act_handle (by simpa using hstarts) hstep hk
      exact Job.held_iff.2 ((Job.held_iff.1 (h k hk')).imp hlive hfailed)

/-- A handled event leaves a handle that is a live upgrade's. -/
theorem HandleOf.perform_live {ev : Event} (h : HandleOf Job.live s) (hhandled : Handled s ev)
    (hev : perform sha256 s ev = some t) : HandleOf Job.live t := by
  -- a call that has the handle and did not fail spawned its goroutine
  have hcall : ∀ {i : ℕ} {failed : Prop}, s.jobs i = .absent → Started s t i failed → ¬ failed →
      HandleOf Job.live t := by
    intro i failed habs hstart hok
    refine h.started habs rfl hstart fun hown => ?_
    cases hstart with
    | refused hcancel hstarted hjobs hjob =>
        have hlive := h i (hcancel ▸ hown)
        rw [habs] at hlive
        cases hlive
    | taken hcancel hstarted hjobs hjob hfailed =>
        exact hjob.resolve_right fun hback => hok (hfailed.1 hback)
  cases ev with
  | startUpgrade i call os =>
      obtain ⟨habs, ⟨-, hstart, -⟩ | ⟨hpass, hstart, -⟩⟩ := perform_startUpgrade hev
      · exact hcall habs hstart id
      · exact hcall habs hstart (hhandled hpass)
  | startLocalUpgrade i call skip os =>
      obtain ⟨habs, hstart⟩ := perform_startLocalUpgrade hev
      exact hcall habs hstart id
  | act a =>
      obtain ⟨hstarts, hstep⟩ := Option.ite_none_left_eq_some.1 hev
      intro k hk
      obtain ⟨hk', hlive, -⟩ := act_handle (by simpa using hstarts) hstep hk
      exact hlive (h k hk')

theorem tracked_runCall {os : List Outcome} (h : ∀ k, Tracked s k)
    (hrun : runCall sha256 i s os = some t) : ∀ k, Tracked t k := by
  induction os generalizing s with
  | nil =>
      obtain ⟨-, heq⟩ := Option.ite_none_left_eq_some.1 hrun
      rwa [← Option.some.inj heq]
  | cons o os ih =>
      obtain ⟨-, hbind⟩ := Option.ite_none_right_eq_some.1 hrun
      obtain ⟨u, hu, hrest⟩ := Option.bind_eq_some_iff.1 hbind
      exact ih (Tracked.advance h hu) hrest

theorem tracked_perform {ev : Event} (h : ∀ k, Tracked s k) (hev : perform sha256 s ev = some t) :
    ∀ k, Tracked t k := by
  cases ev with
  | startUpgrade i call os =>
      obtain ⟨u, hu, hcall⟩ := Option.bind_eq_some_iff.1 hev
      exact tracked_runCall (Tracked.step h hu) hcall
  | startLocalUpgrade i call skip os =>
      obtain ⟨u, hu, hcall⟩ := Option.bind_eq_some_iff.1 hev
      exact tracked_runCall (Tracked.step h hu) hcall
  | act a => exact Tracked.step h (Option.ite_none_left_eq_some.1 hev).2

/-! ## The two halves, at one event -/

/-- The next cancel's answer is read off the two fields. -/
theorem cancelUpgradeError_congr (hcancel : t.upgradeCancel = s.upgradeCancel)
    (hstarted : t.upgradeStarted = s.upgradeStarted) :
    t.cancelUpgradeError = s.cancelUpgradeError := by
  rw [State.cancelUpgradeError, State.cancelUpgradeError, hcancel, hstarted]

theorem Handled.leavesHandle {ev : Event} (h : Handled s ev) : LeavesHandle sha256 s ev := by
  -- a failed call was refused by a check, for it is not one that is past them
  have hcall : ∀ {i : ℕ} {failed : Prop} {t : State}, Started s t i failed → ¬ failed →
      (t.jobs i).failed = true → t.upgradeCancel = s.upgradeCancel ∧
        t.upgradeStarted = s.upgradeStarted ∧ t.cancelUpgradeError = s.cancelUpgradeError := by
    intro i failed t hstart hok hback
    cases hstart with
    | refused hcancel hstarted hjobs hjob =>
        exact ⟨hcancel, hstarted, cancelUpgradeError_congr hcancel hstarted⟩
    | taken hcancel hstarted hjobs hjob hfailed => exact absurd (hfailed.1 hback) hok
  rintro i t (⟨call, os, rfl⟩ | ⟨call, skip, os, rfl⟩) hev hback
  · obtain ⟨-, ⟨-, hstart, -⟩ | ⟨hpass, hstart, -⟩⟩ := perform_startUpgrade hev
    · exact hcall hstart id hback
    · exact hcall hstart (h hpass) hback
  · exact hcall (perform_startLocalUpgrade hev).2 id hback

theorem Handled.cancelsLive {ev : Event} (h : Handled s ev) (howner : HandleOf Job.live s)
    (htracked : ∀ k, Tracked s k) : CancelsLive s ev := by
  rintro rfl hnil
  have hstarted : s.upgradeStarted = false := by
    by_contra hcon
    rw [State.cancelUpgradeError, if_pos (by simpa using hcon)] at hnil
    cases hnil
  obtain ⟨k, hk⟩ : ∃ k, s.upgradeCancel = some k := by
    cases hcancel : s.upgradeCancel with
    | none =>
        rw [State.cancelUpgradeError, hstarted, hcancel] at hnil
        cases hnil
    | some k => exact ⟨k, rfl⟩
  cases hlaunched : s.launched k with
  | false => exact ⟨k, howner k hk, hlaunched⟩
  | true => exact h k ((htracked k).unflagged hk hstarted hlaunched)

/-- **No event that is not handled is answered as it should be.** -/
theorem handled_of_truthful {ev : Event} (howner : HandleOf Job.held s)
    (hev : perform sha256 s ev = some t) (hleaves : LeavesHandle sha256 s ev)
    (hlive : CancelsLive s ev) : Handled s ev := by
  cases ev with
  | startUpgrade i call os =>
      intro hpass hfail
      obtain ⟨habs, ⟨hno, -, -⟩ | ⟨-, hstart, hown⟩⟩ := perform_startUpgrade hev
      · exact hno hpass
      · have hback : (t.jobs i).failed = true := by
          cases hstart with
          | refused hcancel hstarted hjobs hjob => exact hjob
          | taken hcancel hstarted hjobs hjob hfailed => exact hfailed.2 hfail
        -- the handle it leaves is its own, and was nobody's before
        obtain ⟨hcancel, -, -⟩ := hleaves i t (.inl ⟨call, os, rfl⟩) hev hback
        have hheld := howner i (hcancel ▸ hown)
        rw [habs] at hheld
        cases hheld
  | startLocalUpgrade i call skip os => trivial
  | act a =>
      cases a with
      | cancelUpgrade =>
          intro k hbad
          refine hlive rfl ?_
          rw [State.cancelUpgradeError, hbad.notStarted, hbad.owner]
          rfl
      | _ => trivial

/-! ## Runs -/

/-- **When a cancel applies to a live upgrade only**, and a failed start
leaves it alone: in every run, at every event, exactly when every event is
handled. -/
theorem cancel_applies_to_live_iff (sha256 : Bytes → String) {es : List Event} {s : State}
    (hrun : Run (perform sha256) newManager es s) :
    Always (perform sha256) (fun u ev => LeavesHandle sha256 u ev ∧ CancelsLive u ev)
        newManager es ↔
      Always (perform sha256) Handled newManager es := by
  have hheld : HandleOf Job.held newManager := fun _ hk => by cases hk
  have hlive : HandleOf Job.live newManager := fun _ hk => by cases hk
  constructor
  · intro h
    rw [always_iff] at h ⊢
    intro bs ev cs u heq hu
    have howner : HandleOf Job.held u :=
      hu.invariant_of_step hheld fun _ _ _ hv hw => hv.perform_held hw
    subst heq
    obtain ⟨v, hv, hrest⟩ := hrun.of_append
    obtain rfl := hv.unique hu
    obtain ⟨hleaves, hcancels⟩ := h bs ev cs v rfl hv
    cases hrest with
    | cons hev hlater => exact handled_of_truthful howner hev hleaves hcancels
  · intro h
    refine h.of_invariant (I := fun u => HandleOf Job.live u ∧ ∀ k, Tracked u k)
      ⟨hlive, tracked_newManager⟩ (fun u ev v hu hev hv => ?_) fun u ev hu hev => ?_
    · exact ⟨hu.1.perform_live hev hv, tracked_perform hu.2 hv⟩
    · exact ⟨hev.leavesHandle, hev.cancelsLive hu.1 hu.2⟩

/-- A start whose release and asset are found, a second one while its
download runs, and a cancel. -/
def cancelDownload : List Event :=
  [.startUpgrade 0 {} [.ok, .ok, .ok], .act (.advance 0 .ok), .startUpgrade 1 {} [],
    .act .cancelUpgrade]

theorem cancel_applies_to_live_iff_download :
    ∃ s, Run (perform fun _ => "") newManager cancelDownload s ∧
      s.canceled 0 = true ∧ s.jobs 1 = .returned (some .busy) ∧
      Always (perform fun _ => "") (fun u ev => LeavesHandle (fun _ => "") u ev ∧ CancelsLive u ev)
        newManager cancelDownload := by
  have hrun : Run (perform fun _ => "") newManager cancelDownload _ := Run.of_foldlM rfl
  refine ⟨_, hrun, rfl, rfl, (cancel_applies_to_live_iff _ hrun).2 ?_⟩
  refine Always.cons (fun _ => by decide) rfl (Always.cons trivial rfl
    (Always.cons (fun _ => by decide) rfl (Always.cons ?_ rfl trivial)))
  -- no child has been launched
  intro k hbad
  cases hbad.launched

/-- **A start that does not find its release.** It returns an error, and the
cancel that found nothing to cancel before answers `nil` after it, with no
goroutine live. -/
theorem failed_start_keeps_handle :
    ∃ s, perform (fun _ => "") newManager (.startUpgrade 0 {} [.ok, .fail]) = some s ∧
      s.jobs 0 = .returned (some .external) ∧ s.upgradeCancel = some 0 ∧
      newManager.cancelUpgradeError = some .noUpgradeInProgress ∧ s.cancelUpgradeError = none ∧
      (∀ k, (s.jobs k).live = false) ∧
      ¬ Always (perform fun _ => "")
        (fun u ev => LeavesHandle (fun _ => "") u ev ∧ CancelsLive u ev)
        newManager [.startUpgrade 0 {} [.ok, .fail], .act .cancelUpgrade] := by
  refine ⟨_, rfl, rfl, rfl, rfl, rfl, fun k => ?_, fun h => ?_⟩
  · cases k <;> rfl
  · obtain ⟨hcancel, -, -⟩ := h.1.1 0 _ (.inl ⟨{}, _, rfl⟩) rfl rfl
    cases hcancel

end Sysupgrade

end OpenManet
