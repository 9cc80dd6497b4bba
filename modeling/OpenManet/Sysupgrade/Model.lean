import OpenManet.Lib.Machine
import Mathlib.Logic.Function.Basic
/-!
# The upgrade manager

`internal/sysupgrade`: `manager.go` and `staged.go`, as one machine. The
requests that have been made are numbered; each is at a point of its own
code, and one action moves one of them by one step. A step is what the
source does under one acquisition of `Manager.mu`, or one call out of the
package: to the file system, the network, the runner. The scheduler picks
the request, and the action carries the answer of the call.

A start call and the goroutine it spawns are one request, for the call
returns as it spawns and does nothing more. `runLocalUpgrade` runs the same
code as `runUpgrade` from the phase `Verifying` on, so one set of points
serves both.

Of `Progress` only the phase is kept: no decision reads the rest. Of a
staged image the size, the checksum and the preflight verdict are. The last
two fields of the state record what has happened and are read by no step:
which sysupgrade children were launched, and what every preflight said of
the bytes it was run on. Of a release upgrade's own file nothing is kept
here; no release asset is taken to have the name of the staged file.
-/

namespace OpenManet

namespace Sysupgrade

/-- The bytes of a file. -/
abbrev Bytes := List UInt8

/-- `MaxStagedImageBytes`. -/
def maxStagedImageBytes : ℕ := 512 * 1024 * 1024

/-- `Phase`. -/
inductive Phase where
  | unspecified
  | idle
  | checking
  | downloading
  | verifying
  | ready
  | upgrading
  | failed
deriving DecidableEq, Repr

/-- The phases in which a start call answers `ErrBusy`. -/
def Phase.busy : Phase → Bool
  | .downloading | .verifying | .upgrading => true
  | _ => false

/-- The errors of the package's calls. -/
inductive Err where
  /-- `SysupgradeOptions.ToArgs` refuses the options. -/
  | options
  | unknownCurrentVersion
  | busy
  | noUpgradeInProgress
  | upgradeAlreadyExecuting
  | uploadInFlight
  | noStagedImage
  | stagedPreflightFailed
  | uploadTooLarge
  | uploadEmpty
  /-- An error of the network, the file system, the release list or the
  asset match. -/
  | external
deriving DecidableEq, Repr

/-- `StagedImage`. -/
structure StagedImage where
  sizeBytes : ℕ
  sha256 : String
  preflightOK : Bool
deriving DecidableEq, Repr

/-- Where `loadReleases` is, once the cache has not answered. -/
inductive Load where
  /-- Before it publishes `Checking`. -/
  | checking
  | fetching
  /-- Before it publishes `Failed`. -/
  | failing
  /-- Before it publishes `Idle`. -/
  | refreshed
deriving DecidableEq, Repr

/-- Where `runUpgrade` or `runLocalUpgrade` is. -/
inductive Goroutine where
  /-- `runUpgrade` before it publishes `Downloading`. -/
  | announce
  | download
  /-- The download or its check failed; `Failed` comes next. -/
  | downloadFailing
  /-- The digest matched; `Verifying` comes next. -/
  | verified
  /-- `runLocalUpgrade` before it publishes `Verifying`. -/
  | localAnnounce
  /-- Before it publishes `Ready`. -/
  | ready
  | mkdir
  /-- Before the call of `runner.Run`. -/
  | launch
  | inRun
  /-- Before it sets `upgradeStarted`. -/
  | flag
  /-- Before it publishes `Upgrading`. -/
  | upgrading
  | watch
  /-- The directory or the runner failed; `Failed` comes next. -/
  | failing
  /-- `Failed` is published; the deferred section comes next. -/
  | published
  /-- The watcher gave up; the deferred section comes next. -/
  | unwatched
deriving DecidableEq, Repr

/-- Where `StoreStagedImage` is, past its first section. -/
inductive Upload where
  | mkdir
  | removeOld
  | openPartial
  | copy
  | removePartial (err : Err)
  | rename (written : Bytes)
  | preflight (written : Bytes)
  | record (image : StagedImage)
  /-- Before the deferred section that clears `uploadInFlight`. -/
  | finish (err : Option Err)
deriving DecidableEq, Repr

/-- What an upgrade flashes. -/
inductive Source where
  | release
  | staged (image : StagedImage) (skipPreflight : Bool)
deriving DecidableEq, Repr

/-- Where a request is. -/
inductive Job where
  /-- Not made yet. -/
  | absent
  /-- `StartUpgrade` past its check, before the release cache answers. -/
  | detail
  /-- `StartUpgrade` in the `loadReleases` it calls. -/
  | loading (l : Load)
  /-- `StartUpgrade` with the release list in hand. -/
  | lookup
  /-- `StartUpgrade` picking the asset. -/
  | matching
  /-- `StartLocalUpgrade` past its check. -/
  | spawning (image : StagedImage) (skipPreflight : Bool)
  /-- The upgrade goroutine. -/
  | upgrade (source : Source) (g : Goroutine)
  /-- `ListAvailableUpdates` in `loadReleases`. -/
  | listing (l : Load)
  | upload (u : Upload)
  /-- `DiscardStagedImage` past its section. -/
  | discarding
  | returned (err : Option Err)
deriving DecidableEq, Repr

/-- The goroutine at its next point, or gone. -/
def Job.ofGoroutine (source : Source) : Option Goroutine → Job
  | some g => .upgrade source g
  | none => .returned none

/-- The upload at its next point, or its answer. -/
def Job.ofUpload : Upload ⊕ Option Err → Job
  | .inl u => .upload u
  | .inr e => .returned e

/-- The manager, the contexts, the two files, and the requests. -/
structure State where
  phase : Phase := .idle
  /-- The request whose context `upgradeCancel` cancels. -/
  upgradeCancel : Option ℕ := none
  upgradeStarted : Bool := false
  staged : Option StagedImage := none
  uploadInFlight : Bool := false
  /-- The contexts that have been cancelled. -/
  canceled : ℕ → Bool := fun _ => false
  /-- The file at the staged path. -/
  stagedFile : Option Bytes := none
  /-- The file an upload streams into. -/
  partialFile : Option Bytes := none
  jobs : ℕ → Job := fun _ => .absent
  /-- The requests whose sysupgrade child was launched. -/
  launched : ℕ → Bool := fun _ => false
  /-- The bytes preflights were run on, with their verdicts. -/
  preflights : List (Bytes × Bool) := []

/-- The arguments of a start call, as far as its checks go. -/
structure StartCall where
  /-- `opts.ToArgs` succeeds. -/
  optionsOK : Bool := true
  /-- The running version parses. -/
  versionKnown : Bool := true
  forceUnknown : Bool := false
deriving DecidableEq, Repr

/-- The answer of the call a request is waiting on. -/
inductive Outcome where
  | ok
  | fail
  /-- The release cache holds no releases. -/
  | empty
  /-- The download emits a progress event. -/
  | emit
  /-- `runner.Run` is called, and launches the child or not. -/
  | run (child : Bool)
  /-- The upload's source gave these bytes, and then ended or failed. -/
  | copied (bytes : Bytes) (ok : Bool)
deriving DecidableEq, Repr

/-- The steps of the machine. -/
inductive Action where
  | startUpgrade (i : ℕ) (call : StartCall)
  | startLocalUpgrade (i : ℕ) (call : StartCall) (skipPreflight : Bool)
  | listAvailableUpdates (i : ℕ) (forceRefresh cached : Bool)
  | storeStagedImage (i : ℕ)
  | discardStagedImage (i : ℕ)
  | cancelUpgrade
  | shutdown
  | advance (i : ℕ) (o : Outcome)
deriving DecidableEq, Repr

namespace State

variable (s : State)

/-- Request `i` moves on. -/
def setJob (i : ℕ) (j : Job) : State := { s with jobs := Function.update s.jobs i j }

/-- The context of request `i` is cancelled. -/
def cancel (i : ℕ) : State := { s with canceled := Function.update s.canceled i true }

/-! ## The sections of the calls -/

/-- The checks both start calls make first. -/
def callError (call : StartCall) : Option Err :=
  if !call.optionsOK then some .options
  else if !call.versionKnown && !call.forceUnknown then some .unknownCurrentVersion
  else none

/-- `StartUpgrade`'s answer at its check; `none` when it goes on. -/
def startUpgradeError (call : StartCall) : Option Err :=
  match callError call with
  | some e => some e
  | none => if s.phase.busy then some .busy else none

/-- `StartUpgrade` up to the end of its section. -/
def startUpgrade (i : ℕ) (call : StartCall) : State :=
  match s.startUpgradeError call with
  | some e => s.setJob i (.returned (some e))
  | none => { s with upgradeCancel := some i, upgradeStarted := false }.setJob i .detail

/-- `StartLocalUpgrade`'s answer at its check; the staged image when it goes
on. -/
def startLocalUpgradeCheck (call : StartCall) (skipPreflight : Bool) :
    Except Err StagedImage :=
  match callError call with
  | some e => .error e
  | none =>
    match s.staged with
    | none => .error .noStagedImage
    | some image =>
      if !image.preflightOK && !skipPreflight then .error .stagedPreflightFailed
      else if s.phase.busy then .error .busy
      else .ok image

/-- `StartLocalUpgrade` up to the end of its section. -/
def startLocalUpgrade (i : ℕ) (call : StartCall) (skipPreflight : Bool) : State :=
  match s.startLocalUpgradeCheck call skipPreflight with
  | .error e => s.setJob i (.returned (some e))
  | .ok image =>
    { s with upgradeCancel := some i, upgradeStarted := false }.setJob i
      (.spawning image skipPreflight)

/-- `ListAvailableUpdates` up to the answer of the cache, which is asked
unless a refresh is forced. -/
def listAvailableUpdates (i : ℕ) (forceRefresh cached : Bool) : State :=
  s.setJob i (if !forceRefresh && cached then .returned none else .listing .checking)

/-- `StoreStagedImage`'s first section. -/
def storeStagedImage (i : ℕ) : State :=
  if s.uploadInFlight then s.setJob i (.returned (some .uploadInFlight))
  else { s with uploadInFlight := true }.setJob i (.upload .mkdir)

/-- `DiscardStagedImage`'s section. -/
def discardStagedImage (i : ℕ) : State :=
  match s.staged with
  | none => s.setJob i (.returned (some .noStagedImage))
  | some _ => { s with staged := none }.setJob i .discarding

/-- `CancelUpgrade`'s answer. -/
def cancelUpgradeError : Option Err :=
  if s.upgradeStarted then some .upgradeAlreadyExecuting
  else if s.upgradeCancel.isNone then some .noUpgradeInProgress
  else none

/-- `CancelUpgrade`. -/
def cancelUpgrade : State :=
  match s.cancelUpgradeError, s.upgradeCancel with
  | none, some i => { s.cancel i with upgradeCancel := none, phase := .idle }
  | _, _ => s

/-- `Shutdown`'s section. -/
def shutdown : State :=
  match s.upgradeCancel with
  | some i => { s.cancel i with upgradeCancel := none }
  | none => s

/-! ## The steps of a request -/

/-- `loadReleases` past the cache: the next point, or whether it got the
list. -/
def loadReleases : Load → Outcome → Option (State × (Load ⊕ Bool))
  | .checking, .ok => some ({ s with phase := .checking }, .inl .fetching)
  | .fetching, .ok => some (s, .inl .refreshed)
  | .fetching, .fail => some (s, .inl .failing)
  | .failing, .ok => some ({ s with phase := .failed }, .inr false)
  | .refreshed, .ok => some ({ s with phase := .idle }, .inr true)
  | _, _ => none

/-- `runUpgrade` and `runLocalUpgrade`: the next point, or the end. The
runner launches the child only if its context is not cancelled at the
call. -/
def runUpgrade (i : ℕ) : Goroutine → Outcome → Option (State × Option Goroutine)
  | .announce, .ok => some ({ s with phase := .downloading }, some .download)
  | .download, .emit => some ({ s with phase := .downloading }, some .download)
  | .download, .ok => some (s, some .verified)
  | .download, .fail => some (s, some .downloadFailing)
  | .downloadFailing, .ok => some ({ s with phase := .failed }, some .published)
  | .verified, .ok => some ({ s with phase := .verifying }, some .ready)
  | .localAnnounce, .ok => some ({ s with phase := .verifying }, some .ready)
  | .ready, .ok => some ({ s with phase := .ready }, some .mkdir)
  | .mkdir, .ok => some (s, some .launch)
  | .mkdir, .fail => some (s, some .failing)
  | .launch, .run child =>
    if child && s.canceled i then none
    else some ({ s with launched := if child then Function.update s.launched i true
      else s.launched }, some .inRun)
  | .inRun, .ok => some (s, some .flag)
  | .inRun, .fail => some (s, some .failing)
  | .flag, .ok => some ({ s with upgradeStarted := true }, some .upgrading)
  | .upgrading, .ok => some ({ s with phase := .upgrading }, some .watch)
  -- the child is gone and the daemon is not
  | .watch, .fail => some ({ s with phase := .failed }, some .published)
  | .watch, .ok => some (s, some .unwatched)
  | .failing, .ok => some ({ s with phase := .failed }, some .published)
  | .published, .ok => some ({ s with upgradeCancel := none }, none)
  | .unwatched, .ok => some ({ s with upgradeCancel := none }, none)
  | _, _ => none

/-- A preflight reads the file at the staged path. -/
def preflighted (verdict : Bool) : State :=
  match s.stagedFile with
  | some bytes => { s with preflights := (bytes, verdict) :: s.preflights }
  | none => s

variable (sha256 : Bytes → String)

/-- `StoreStagedImage` past its first section: the next point, or what it
returns. -/
def runUpload : Upload → Outcome → Option (State × (Upload ⊕ Option Err))
  | .mkdir, .ok => some (s, .inl .removeOld)
  | .mkdir, .fail => some (s, .inl (.finish (some .external)))
  | .removeOld, .ok => some ({ s with partialFile := none }, .inl .openPartial)
  | .removeOld, .fail => some (s, .inl .openPartial)
  | .openPartial, .ok => some ({ s with partialFile := some [] }, .inl .copy)
  | .openPartial, .fail => some (s, .inl (.finish (some .external)))
  | .copy, .copied bytes ok =>
    -- the source is read up to one byte past the limit
    if bytes.length ≤ maxStagedImageBytes + 1 then
      some ({ s with partialFile := some bytes }, .inl
        (if !ok then .removePartial .external
        else if bytes.length = 0 then .removePartial .uploadEmpty
        else if maxStagedImageBytes < bytes.length then .removePartial .uploadTooLarge
        else .rename bytes))
    else none
  | .removePartial e, .ok => some ({ s with partialFile := none }, .inl (.finish (some e)))
  | .removePartial e, .fail => some (s, .inl (.finish (some e)))
  | .rename written, .ok =>
    if s.partialFile.isSome then
      some ({ s with stagedFile := s.partialFile, partialFile := none }, .inl (.preflight written))
    else none
  | .rename _, .fail => some (s, .inl (.removePartial .external))
  | .preflight written, .ok =>
    some (s.preflighted true, .inl (.record ⟨written.length, sha256 written, true⟩))
  | .preflight written, .fail =>
    some (s.preflighted false, .inl (.record ⟨written.length, sha256 written, false⟩))
  | .record image, .ok => some ({ s with staged := some image }, .inl (.finish none))
  | .finish e, .ok => some ({ s with uploadInFlight := false }, .inr e)
  | _, _ => none

/-- One step of request `i`. -/
def advance (i : ℕ) (o : Outcome) : Option State :=
  match s.jobs i with
  | .detail =>
    match o with
    | .ok => some (s.setJob i .lookup)
    | .empty => some (s.setJob i (.loading .checking))
    | .fail => some ((s.cancel i).setJob i (.returned (some .external)))
    | _ => none
  | .loading l =>
    match s.loadReleases l o with
    | some (t, .inl l) => some (t.setJob i (.loading l))
    | some (t, .inr true) => some (t.setJob i .lookup)
    | some (t, .inr false) => some ((t.cancel i).setJob i (.returned (some .external)))
    | none => none
  | .lookup =>
    match o with
    | .ok => some (s.setJob i .matching)
    | .fail => some ((s.cancel i).setJob i (.returned (some .external)))
    | _ => none
  | .matching =>
    match o with
    | .ok => some (s.setJob i (.upgrade .release .announce))
    | .fail => some ((s.cancel i).setJob i (.returned (some .external)))
    | _ => none
  | .spawning image skip =>
    match o with
    | .ok => some (s.setJob i (.upgrade (.staged image skip) .localAnnounce))
    | _ => none
  | .upgrade source g =>
    match s.runUpgrade i g o with
    | some (t, g) => some (t.setJob i (.ofGoroutine source g))
    | none => none
  | .listing l =>
    match s.loadReleases l o with
    | some (t, .inl l) => some (t.setJob i (.listing l))
    | some (t, .inr ok) => some (t.setJob i (.returned (if ok then none else some .external)))
    | none => none
  | .upload u =>
    match s.runUpload sha256 u o with
    | some (t, r) => some (t.setJob i (.ofUpload r))
    | none => none
  | .discarding =>
    match o with
    | .ok => some ({ s with stagedFile := none }.setJob i (.returned none))
    | .fail => some (s.setJob i (.returned (some .external)))
    | _ => none
  | .absent => none
  | .returned _ => none

/-- A request is made once. -/
def whenAbsent (i : ℕ) (t : State) : Option State := if s.jobs i = .absent then some t else none

end State

/-- The machine. -/
def step (sha256 : Bytes → String) (s : State) : Action → Option State
  | .startUpgrade i call => s.whenAbsent i (s.startUpgrade i call)
  | .startLocalUpgrade i call skip => s.whenAbsent i (s.startLocalUpgrade i call skip)
  | .listAvailableUpdates i force cached => s.whenAbsent i (s.listAvailableUpdates i force cached)
  | .storeStagedImage i => s.whenAbsent i (s.storeStagedImage i)
  | .discardStagedImage i => s.whenAbsent i (s.discardStagedImage i)
  | .cancelUpgrade => some s.cancelUpgrade
  | .shutdown => some s.shutdown
  | .advance i o => s.advance sha256 i o

/-- `NewManager`: nothing asked of it yet. -/
def newManager : State := {}

/-! ## What the steps leave alone -/

section Frames

open State

variable {s t : State} {i : ℕ} {j : Job}

@[simp] theorem setJob_jobs_self : (s.setJob i j).jobs i = j := Function.update_self ..

theorem setJob_jobs_of_ne {k : ℕ} (h : k ≠ i) : (s.setJob i j).jobs k = s.jobs k :=
  Function.update_of_ne h ..

@[simp] theorem setJob_phase : (s.setJob i j).phase = s.phase := rfl
@[simp] theorem setJob_upgradeCancel : (s.setJob i j).upgradeCancel = s.upgradeCancel := rfl
@[simp] theorem setJob_upgradeStarted : (s.setJob i j).upgradeStarted = s.upgradeStarted := rfl
@[simp] theorem setJob_canceled : (s.setJob i j).canceled = s.canceled := rfl
@[simp] theorem setJob_launched : (s.setJob i j).launched = s.launched := rfl
@[simp] theorem setJob_staged : (s.setJob i j).staged = s.staged := rfl
@[simp] theorem setJob_stagedFile : (s.setJob i j).stagedFile = s.stagedFile := rfl
@[simp] theorem setJob_partialFile : (s.setJob i j).partialFile = s.partialFile := rfl
@[simp] theorem setJob_preflights : (s.setJob i j).preflights = s.preflights := rfl
@[simp] theorem setJob_uploadInFlight : (s.setJob i j).uploadInFlight = s.uploadInFlight := rfl

theorem whenAbsent_eq_some {u : State} : s.whenAbsent i t = some u ↔ s.jobs i = .absent ∧ t = u := by
  simp [whenAbsent]

/-- `StartLocalUpgrade` goes on with the staged image, past all its
checks. -/
theorem startLocalUpgradeCheck_eq_ok {call : StartCall} {skip : Bool} {image : StagedImage} :
    s.startLocalUpgradeCheck call skip = .ok image ↔
      callError call = none ∧ s.staged = some image ∧ (image.preflightOK || skip) = true ∧
        s.phase.busy = false := by
  unfold startLocalUpgradeCheck
  cases hcall : callError call with
  | some e => simp
  | none =>
      cases hstaged : s.staged with
      | none => simp
      | some img =>
          by_cases hpre : (img.preflightOK || skip) = true
          · have hnot : (!img.preflightOK && !skip) = false := by
              rw [← Bool.not_or, hpre]; rfl
            simp only [hnot, Bool.false_eq_true, if_false]
            by_cases hbusy : s.phase.busy = true
            · simp [hbusy]
            · simp only [hbusy, Bool.false_eq_true, if_false, Except.ok.injEq, Option.some.injEq,
                true_and, and_true]
              constructor
              · rintro rfl; exact ⟨rfl, hpre⟩
              · exact fun heq => heq.1
          · have hnot : (!img.preflightOK && !skip) = true := by
              rw [← Bool.not_or]; simpa using hpre
            simp only [hnot, if_true, reduceCtorEq, Option.some.injEq, true_and, false_iff]
            rintro ⟨rfl, hcon, -⟩
            exact hpre hcon

/-- Two states agree on what the upgrade protocol reads. -/
structure SameControl (s t : State) : Prop where
  phase : t.phase = s.phase
  upgradeCancel : t.upgradeCancel = s.upgradeCancel
  upgradeStarted : t.upgradeStarted = s.upgradeStarted
  canceled : t.canceled = s.canceled
  launched : t.launched = s.launched
  jobs : t.jobs = s.jobs

theorem SameControl.refl (s : State) : SameControl s s := ⟨rfl, rfl, rfl, rfl, rfl, rfl⟩

/-- An upload stays out of the upgrade protocol. -/
theorem runUpload_control {sha256 : Bytes → String} {u : Upload} {o : Outcome}
    {r : Upload ⊕ Option Err} (h : s.runUpload sha256 u o = some (t, r)) : SameControl s t := by
  cases u <;> cases o <;> simp only [runUpload, Option.some.injEq, Prod.mk.injEq,
    Option.ite_none_right_eq_some, reduceCtorEq] at h
  case preflight.ok | preflight.fail =>
    obtain ⟨rfl, -⟩ := h
    unfold preflighted
    split <;> exact ⟨rfl, rfl, rfl, rfl, rfl, rfl⟩
  case copy.copied | rename.ok =>
    obtain ⟨-, rfl, -⟩ := h
    exact ⟨rfl, rfl, rfl, rfl, rfl, rfl⟩
  all_goals
    obtain ⟨rfl, -⟩ := h
    exact ⟨rfl, rfl, rfl, rfl, rfl, rfl⟩

/-- A release check writes the phase and nothing else, and its wait for the
network writes nothing. -/
theorem loadReleases_eq {l : Load} {o : Outcome} {r : Load ⊕ Bool}
    (h : s.loadReleases l o = some (t, r)) :
    ∃ p, t = { s with phase := p } ∧ (l = .fetching → p = s.phase) := by
  cases l <;> cases o <;> simp only [loadReleases, Option.some.injEq, Prod.mk.injEq,
    reduceCtorEq] at h
  all_goals
    obtain ⟨rfl, -⟩ := h
    exact ⟨_, rfl, by simp⟩

/-- The runner has not been called. -/
def Goroutine.early : Goroutine → Bool
  | .announce | .download | .downloadFailing | .verified | .localAnnounce | .ready | .mkdir
  | .launch => true
  | _ => false

/-- Where a goroutine begins. -/
def Goroutine.first : Goroutine → Bool
  | .announce | .localAnnounce => true
  | _ => false

/-- What a step of a request other than a goroutine's leaves alone: all but
the phase, its own context and the staged image. -/
structure SameChild (s t : State) : Prop where
  upgradeCancel : t.upgradeCancel = s.upgradeCancel
  upgradeStarted : t.upgradeStarted = s.upgradeStarted
  canceled : ∀ k, s.canceled k = true → t.canceled k = true
  launched : t.launched = s.launched
  jobs : t.jobs = s.jobs

theorem SameControl.sameChild (h : SameControl s t) : SameChild s t :=
  ⟨h.upgradeCancel, h.upgradeStarted, fun k hk => by rw [h.canceled, hk], h.launched, h.jobs⟩

theorem sameChild_phase (p : Phase) : SameChild s { s with phase := p } :=
  ⟨rfl, rfl, fun _ h => h, rfl, rfl⟩

theorem SameChild.cancel (h : SameChild s t) (i : ℕ) : SameChild s (t.cancel i) := by
  refine ⟨h.upgradeCancel, h.upgradeStarted, fun k hk => ?_, h.launched, h.jobs⟩
  by_cases hki : k = i
  · subst hki; exact Function.update_self ..
  · exact (Function.update_of_ne hki ..).trans (h.canceled k hk)

/-- **The two kinds of step.** A goroutine's; or another request's, which
leaves every child and its cancellation alone and is at most the spawning of
a goroutine. -/
theorem advance_cases {sha256 : Bytes → String} {o : Outcome}
    (h : s.advance sha256 i o = some t) :
    (∃ src g u r, s.jobs i = .upgrade src g ∧ s.runUpgrade i g o = some (u, r) ∧
      t = u.setJob i (.ofGoroutine src r)) ∨
    (s.jobs i ≠ .absent ∧ (∀ src g, s.jobs i ≠ .upgrade src g) ∧
      (∀ e, s.jobs i ≠ .returned e) ∧
      ∃ u j, SameChild s u ∧ t = u.setJob i j ∧ ∀ src g, j = .upgrade src g → g.first = true) := by
  have hself : SameChild s s := (SameControl.refl s).sameChild
  unfold advance at h
  cases hjob : s.jobs i with
  | absent | returned e => simp [hjob] at h
  | upgrade source g =>
      refine .inl ⟨source, g, ?_⟩
      simp only [hjob] at h
      split at h
      · rename_i u r hrun
        exact ⟨u, r, rfl, hrun, (Option.some.inj h).symm⟩
      · cases h
  | spawning image skip =>
      refine .inr ⟨nofun, nofun, nofun, ?_⟩
      rw [hjob] at h
      cases o <;> simp only [Option.some.injEq, reduceCtorEq] at h
      exact ⟨_, _, hself, h.symm, by simp [Goroutine.first]⟩
  | detail | lookup | matching =>
      refine .inr ⟨nofun, nofun, nofun, ?_⟩
      rw [hjob] at h
      cases o <;> simp only [Option.some.injEq, reduceCtorEq] at h
      case fail => exact ⟨_, _, hself.cancel i, h.symm, nofun⟩
      all_goals exact ⟨_, _, hself, h.symm, by simp [Goroutine.first]⟩
  | discarding =>
      refine .inr ⟨nofun, nofun, nofun, ?_⟩
      rw [hjob] at h
      cases o <;> simp only [Option.some.injEq, reduceCtorEq] at h
      case ok =>
        subst h
        exact ⟨{ s with stagedFile := none }, _, ⟨rfl, rfl, fun _ hk => hk, rfl, rfl⟩, rfl, nofun⟩
      case fail => exact ⟨_, _, hself, h.symm, nofun⟩
  | loading l =>
      refine .inr ⟨nofun, nofun, nofun, ?_⟩
      simp only [hjob] at h
      split at h
      case h_4 => cases h
      all_goals
        rename_i hload
        obtain ⟨p, rfl, -⟩ := loadReleases_eq hload
      case h_3 => exact ⟨_, _, (sameChild_phase p).cancel i, (Option.some.inj h).symm, nofun⟩
      all_goals exact ⟨_, _, sameChild_phase p, (Option.some.inj h).symm, nofun⟩
  | listing l =>
      refine .inr ⟨nofun, nofun, nofun, ?_⟩
      simp only [hjob] at h
      split at h
      case h_3 => cases h
      all_goals
        rename_i hload
        obtain ⟨p, rfl, -⟩ := loadReleases_eq hload
        exact ⟨_, _, sameChild_phase p, (Option.some.inj h).symm, nofun⟩
  | upload u =>
      refine .inr ⟨nofun, nofun, nofun, ?_⟩
      simp only [hjob] at h
      split at h
      · rename_i w r hup
        refine ⟨w, _, (runUpload_control hup).sameChild, (Option.some.inj h).symm, ?_⟩
        cases r <;> exact nofun
      · cases h

end Frames

end Sysupgrade

end OpenManet
