import OpenManet.Blos.Model
/-!
# Beyond line of sight — a change that fails

`UpdateBLOSConfig` of `handlers/blos.go` with `ConfigureAndEnable`, `Enable` and
`Disable` of the manager, as one call after the other: what becomes of the flag
`blos.enable` in the configuration file and of the module. Enabling persists the
flag before it starts the module and takes it back where the start fails;
disabling stops the module before it persists the flag, and starts it again where
that fails.

Neither way back looks at what was there before, and either may fail itself. So a
change that fails leaves things as they were under a condition
(`updateBLOSConfig_leaves_iff`).
-/

namespace OpenManet

namespace Blos

/-- What a call changes. -/
structure Setting where
  /-- `blos.enable`, in the configuration file. -/
  persisted : Bool
  /-- `IsRunning`. -/
  running : Bool
deriving DecidableEq

/-- What a call gets from outside. -/
structure Outside where
  attempt : Attempt
  /-- `PersistBLOSConfig(false)`. -/
  persistFalse : Except String Unit

/-- The codes of the errors. -/
inductive Code where
  | invalidArgument
  | internal
deriving DecidableEq

/-! ## The manager -/

/-- `PersistBLOSConfig`. -/
def persistBLOSConfig (enable : Bool) (r : Except String Unit) (s : Setting) :
    Except String Unit × Setting :=
  match r with
  | .error e => (.error e, s)
  | .ok () => (.ok (), { s with persisted := enable })

/-- The steps of `ConfigureAndEnable` up to the instance. -/
def Attempt.prepare (o : Attempt) : Except String Unit := do
  wrap "tailscale service setup failed" o.service
  wrap "tailscale daemon not available" o.daemon
  wrap "tailscale authentication failed" o.authenticate
  wrap "tailscale not ready after authentication" o.ready
  o.created

/-- `ConfigureAndEnable`. -/
def configureAndEnable (o : Outside) (s : Setting) : Except String Unit × Setting :=
  if s.running then (.ok (), s)
  else
    match o.attempt.prepare with
    | .error e => (.error e, s)
    | .ok () =>
        match persistBLOSConfig true o.attempt.persist s with
        | (.error e, s) => (.error ("failed to persist BLOS config: " ++ e), s)
        | (.ok (), s) =>
            match o.attempt.configureInterfaces with
            -- what the rollback answers is only logged
            | .error e => (.error e, (persistBLOSConfig false o.persistFalse s).2)
            | .ok () => (.ok (), { s with running := true })

/-- `Enable`. -/
def enable (o : Outside) (s : Setting) : Except String Unit × Setting :=
  if s.running then (.ok (), s)
  else
    match o.attempt.enable with
    | .error e => (.error e, s)
    | .ok () => (.ok (), { s with running := true })

/-- `Disable`. -/
def disable (s : Setting) : Setting := { s with running := false }

/-! ## The handler -/

/-- `enableBLOS`. -/
def enableBLOS (authKey : List Char) (o : Outside) (s : Setting) :
    Except (Code × String) Unit × Setting :=
  if Text.trimSpace authKey = [] then (.error (.invalidArgument, "auth_key is required"), s)
  else
    match configureAndEnable o s with
    | (.error e, s) => (.error (.internal, "failed to enable BLOS: " ++ e), s)
    | (.ok (), s) => (.ok (), s)

/-- `disableBLOS`. -/
def disableBLOS (o : Outside) (s : Setting) : Except (Code × String) Unit × Setting :=
  match persistBLOSConfig false o.persistFalse (disable s) with
  | (.error e, s) =>
      (.error (.internal,
        "failed to disable BLOS: config persistence failed, rolled back: " ++ e), (enable o s).2)
  | (.ok (), s) => (.ok (), s)

/-- `UpdateBLOSConfig`. -/
def updateBLOSConfig (enableBlos : Bool) (authKey : List Char) (o : Outside) (s : Setting) :
    Except (Code × String) Unit × Setting :=
  if enableBlos then enableBLOS authKey o s else disableBLOS o s

/-! ## When a change leaves things as they were -/

/-- **A change leaves things as they were, or makes them as requested**: the one
where it fails, the other where it succeeds. -/
def LeavesOrSets (requested : Bool) (s : Setting) :
    Except (Code × String) Unit × Setting → Prop
  | (.error _, s') => s' = s
  | (.ok (), s') => s' = ⟨requested, requested⟩

/-- The module is to be started, and is not. -/
def StartFails (o : Attempt) : Prop :=
  o.prepare.isOk ∧ o.persist.isOk ∧ ¬ o.configureInterfaces.isOk

/-- **The way back leads to where one was.** Where the start fails, the flag is
taken back if and only if it was not set; where the flag cannot be persisted, the
module can be started again if and only if it was running. -/
def Returns (enableBlos : Bool) (authKey : List Char) (o : Outside) (s : Setting) : Prop :=
  if enableBlos then
    Text.trimSpace authKey ≠ [] → s.running = false → StartFails o.attempt →
      (o.persistFalse.isOk ↔ s.persisted = false)
  else ¬ o.persistFalse.isOk → (o.attempt.enable.isOk ↔ s.running = true)

variable {o : Outside} {s : Setting} {authKey : List Char}

theorem enableBLOS_leaves_iff (hs : s.running = true → s.persisted = true) :
    LeavesOrSets true s (enableBLOS authKey o s) ↔ Returns true authKey o s := by
  obtain ⟨persisted, running⟩ := s
  unfold enableBLOS Returns
  by_cases hkey : Text.trimSpace authKey = []
  · simp [hkey, LeavesOrSets]
  · cases running with
    | true =>
      obtain rfl : persisted = true := hs rfl
      simp [hkey, LeavesOrSets, configureAndEnable]
    | false =>
      simp only [hkey, configureAndEnable, StartFails]
      cases hprepare : o.attempt.prepare with
      | error e => simp [LeavesOrSets, Except.isOk, Except.toBool]
      | ok u =>
        cases hpersist : o.attempt.persist with
        | error e => simp [LeavesOrSets, persistBLOSConfig, Except.isOk, Except.toBool]
        | ok u =>
          cases hstart : o.attempt.configureInterfaces with
          | ok u => simp [LeavesOrSets, persistBLOSConfig, Except.isOk, Except.toBool]
          | error e =>
            cases hback : o.persistFalse <;> cases persisted <;>
              simp [LeavesOrSets, persistBLOSConfig, hkey, Except.isOk, Except.toBool]

theorem disableBLOS_leaves_iff :
    LeavesOrSets false s (disableBLOS o s) ↔ Returns false authKey o s := by
  obtain ⟨persisted, running⟩ := s
  unfold disableBLOS Returns
  cases hback : o.persistFalse with
  | ok u => simp [LeavesOrSets, persistBLOSConfig, disable, Except.isOk, Except.toBool]
  | error e =>
    cases hstart : o.attempt.enable <;> cases running <;>
      simp [LeavesOrSets, persistBLOSConfig, disable, enable, hstart, Except.isOk, Except.toBool]

/-- **A change that fails leaves things as they were, and one that succeeds makes
them as requested, if and only if the way back leads to where one was.** -/
theorem updateBLOSConfig_leaves_iff (enableBlos : Bool) (authKey : List Char) (o : Outside)
    (s : Setting) (hs : s.running = true → s.persisted = true) :
    LeavesOrSets enableBlos s (updateBLOSConfig enableBlos authKey o s) ↔
      Returns enableBlos authKey o s := by
  cases enableBlos with
  | true => exact enableBLOS_leaves_iff hs
  | false => exact disableBLOS_leaves_iff

/-- Everything succeeds but the persisting of `false`. -/
def readOnly : Outside where
  attempt := ⟨.ok (), .ok (), .ok (), .ok (), .ok true, .ok (), .ok ()⟩
  persistFalse := .error "writing config file: read-only file system"

/-- A module that runs is started again. -/
theorem updateBLOSConfig_leaves_iff_readOnly :
    LeavesOrSets false ⟨true, true⟩ (updateBLOSConfig false [] readOnly ⟨true, true⟩) :=
  (updateBLOSConfig_leaves_iff false [] readOnly ⟨true, true⟩ fun _ => rfl).2 fun _ =>
    iff_of_true rfl rfl

/-- And one that does not run is started. -/
theorem updateBLOSConfig_starts :
    ¬ ∀ (enableBlos : Bool) (authKey : List Char) (o : Outside) (s : Setting),
      (s.running = true → s.persisted = true) →
        LeavesOrSets enableBlos s (updateBLOSConfig enableBlos authKey o s) := by
  intro hall
  have hsame : (⟨false, true⟩ : Setting) = ⟨false, false⟩ :=
    hall false [] readOnly ⟨false, false⟩ nofun
  exact absurd hsame (by decide)

end Blos

end OpenManet
