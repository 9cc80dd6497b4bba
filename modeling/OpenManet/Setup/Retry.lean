import OpenManet.Setup.Rollback
import OpenManet.Setup.Interfaces
/-!
# Trying again

A device counts as set up when the daemon's own flag says so, or LuCI's mark
does. The mark is written and committed long before the flag, and only the
rollback takes it back. A run that fails after the password is not undone,
and one that is undone on a device without a `luci` file keeps the mark in
memory: either way the device says that it is set up, and refuses to try
again.
-/

namespace OpenManet

namespace Setup

open Uci Fallible Network

variable {S : Service} {W : World} {p : MeshNodeProfile}

/-! ## The guard -/

/-- Some radio of the config is a HaLow radio. -/
def hasHalow (c : Config) : Bool :=
  (c.refs "wifi-device").any fun dev => morseType (c.get dev "type")

/-- The memory holds a HaLow radio. -/
def HalowInMemory (t : Tree) : Prop := ∃ c, t.mem "wireless" = some c ∧ hasHalow c = true

theorem hasUsableHalowRadio_run (h : Host) :
    hasUsableHalowRadio h = .ok (!h.fate.refuses h.tick && (h.tree.mem "wireless").any hasHalow)
      { h with tick := h.tick + 1 } := by
  have hlist : attempt (getSections "wireless" "wifi-device") h =
      .ok (if h.fate.refuses h.tick then .error refusal
        else (h.tree.mem "wireless").elim (.error (missingConfig "wireless")) fun c =>
          .ok (c.refs "wifi-device")) { h with tick := h.tick + 1 } := by
    unfold attempt getSections call
    cases h.fate.refuses h.tick with
    | true => simp
    | false => cases hmem : h.tree.mem "wireless" <;> simp [hmem]
  refine (bind_of_ok hlist).trans ?_
  cases h.fate.refuses h.tick with
  | true => rfl
  | false =>
      cases hmem : h.tree.mem "wireless" with
      | none => rfl
      | some c =>
          have hmorse : isMorseDevice h.tree = fun dev => morseType (c.get dev "type") :=
            funext (isMorseDevice_eq hmem)
          show (EStateM.Result.ok ((c.refs "wifi-device").any (isMorseDevice h.tree)) _ :
            EStateM.Result Err Host Bool) = _
          rw [hmorse]
          rfl

/-- **When the guard lets a run start.** -/
theorem succeeds_guard_iff (d : Device) :
    succeeds checkReapplyGuard d = true ↔
      d.setupEnabled = true ∧ d.setupComplete = false ∧
        legacyLuciWizardUsed d.host.tree = false ∧ d.host.fate.refuses d.host.tick = false ∧
        HalowInMemory d.host.tree := by
  have hradio : ∀ found : Bool, hasUsableHalowRadio d.host = .ok found
      { d.host with tick := d.host.tick + 1 } →
      succeeds (do
        if ← caught (fun _ => pure false) (onTree hasUsableHalowRadio) then pure ()
        else throw ⟨.failedPrecondition, none, "no usable HaLow radio detected on this device"⟩ :
        EStateM Fault Device Unit) d = found := by
    intro found hfound
    have hrun : caught (fun _ => pure false) (onTree hasUsableHalowRadio) d
        = (.ok found { d with host := { d.host with tick := d.host.tick + 1 } } :
          EStateM.Result Fault Device Bool) := by
      unfold caught onTree zoom
      rw [hfound]
    unfold Fallible.succeeds
    rw [bind_of_ok hrun]
    cases found <;> rfl
  have hlast := hradio _ (hasUsableHalowRadio_run d.host)
  have hhalow : ((d.host.tree.mem "wireless").any hasHalow = true) ↔ HalowInMemory d.host.tree := by
    unfold HalowInMemory
    cases d.host.tree.mem "wireless" <;> simp
  unfold Fallible.succeeds checkReapplyGuard
  split_ifs with henabled hcomplete hused
  · simp_all
  · simp_all
  · simp_all
  · unfold Fallible.succeeds at hlast
    rw [hlast, ← hhalow]
    simp_all

/-! ## The status -/

theorem collectSetupRadios_run (h : Host) : ∃ r t, S.collectSetupRadios h = .ok r t := by
  obtain ⟨r, hr⟩ := attempt_run (getSections "wireless" "wifi-device") h
  cases r with
  | error e => exact ⟨_, _, bind_of_ok hr⟩
  | ok names => exact ⟨_, _, bind_of_ok hr⟩

theorem detectAlreadyConfigured_run (auth : Bool) (hostname : String) (h : Host) :
    ∃ b t, detectAlreadyConfigured auth hostname h = .ok b t := by
  unfold detectAlreadyConfigured
  split
  · exact ⟨_, _, rfl⟩
  · obtain ⟨r, hr⟩ := attempt_run (getSections "network" "wizard") h
    rw [bind_of_ok hr]
    split
    · exact ⟨_, _, rfl⟩
    · obtain ⟨r', hr'⟩ := attempt_run (getSections "network" "interface")
        (final (getSections "network" "wizard") h)
      rw [bind_of_ok hr']
      split
      · exact ⟨_, _, rfl⟩
      · exact ⟨_, _, rfl⟩

theorem reads_firstSystemSection : Within Reads firstSystemSection := by
  refine within_bind (within_saying reads_getSections) fun l => ?_
  split
  · exact within_pure _
  · exact within_fail

/-- The device says that it is set up, or that it is not. -/
def Reports (S : Service) (d : Device) (complete : Bool) : Prop :=
  ∃ status t, S.getSetupStatus d = .ok status t ∧ status.isSetupComplete = complete

/-- **What the status is made of**: the daemon's flag and LuCI's mark. -/
theorem reports_iff {d : Device} {complete : Bool} :
    Reports S d complete ↔ complete = (d.setupComplete || legacyLuciWizardUsed d.host.tree) := by
  have hrun : Reports S d (d.setupComplete || legacyLuciWizardUsed d.host.tree) := by
    obtain ⟨system, hsystem⟩ := attempt_run firstSystemSection d.host
    have htree : (final firstSystemSection d.host).tree = d.host.tree :=
      reads_firstSystemSection d.host
    obtain ⟨radios, t, hradios⟩ := collectSetupRadios_run (S := S) (final firstSystemSection d.host)
    have hread : tree (final firstSystemSection d.host) = .ok (final firstSystemSection d.host).tree
      (final firstSystemSection d.host) := rfl
    unfold Reports Service.getSetupStatus onTree zoom
    rw [bind_of_ok hsystem, bind_of_ok hread]
    dsimp only
    rw [bind_of_ok hradios, htree]
    cases system with
    | ok sectionName =>
        obtain ⟨configured, u, hconfigured⟩ := detectAlreadyConfigured_run d.authEnable
          (firstValue d.host.tree "system" sectionName "hostname") t
        rw [bind_of_ok hconfigured]
        exact ⟨_, _, rfl, rfl⟩
    | error e =>
        obtain ⟨configured, u, hconfigured⟩ := detectAlreadyConfigured_run d.authEnable "" t
        rw [bind_of_ok hconfigured]
        exact ⟨_, _, rfl, rfl⟩
  constructor
  · rintro ⟨status, t, hstatus, rfl⟩
    obtain ⟨status', t', hstatus', heq⟩ := hrun
    rw [hstatus] at hstatus'
    obtain ⟨rfl, -⟩ := EStateM.Result.ok.inj hstatus'
    exact heq
  · rintro rfl
    exact hrun

/-! ## The last two phases -/

/-- The last two phases end well. -/
def TailEnds (S : Service) (W : World) : Prop :=
  Reloaded S W ∧ W.delivers .persistFlags .started = true ∧ W.persists = true ∧
    W.delivers .persistFlags .done = true

theorem runPersistFlags_ok {d : Device} (hstart : W.delivers .persistFlags .started = true)
    (hpersist : W.persists = true) (hdone : W.delivers .persistFlags .done = true) :
    ∃ d', W.runPersistFlags d = .ok () d' ∧ d'.authEnable = true := by
  have hbody := persistSetupAndAuth_of_persists hpersist
    (d.told .persistFlags .started "persisting setup.complete and auth.enable")
  exact ⟨_, runPhase_of_ok hstart hbody hdone, rfl⟩

theorem runPersistFlags_eq_ok {d d' : Device} (h : W.runPersistFlags d = .ok () d') :
    W.delivers .persistFlags .started = true ∧ W.persists = true ∧
      W.delivers .persistFlags .done = true := by
  cases hstart : W.delivers .persistFlags .started with
  | false =>
      rw [World.runPersistFlags, runPhase_lost hstart] at h
      cases h
  | true =>
      obtain ⟨t, hbody, -⟩ := runPhase_eq_ok h
      have hpersist : W.persists = true := by
        by_contra hno
        simp [World.persistSetupAndAuth, hno] at hbody
      refine ⟨rfl, hpersist, ?_⟩
      by_contra hlost
      rw [World.runPersistFlags, runPhase_of_done_lost hstart hbody (by simpa using hlost)] at h
      cases h

theorem runTail_ok (h : TailEnds S W) (d : Device) :
    ∃ d', S.runTail W p d = .ok () d' ∧ d'.authEnable = true := by
  obtain ⟨hreload, hstart, hpersist, hdone⟩ := h
  obtain ⟨t, hfirst, -⟩ := runReloadServices_ok hreload d
  obtain ⟨u, hsecond, hauth⟩ := runPersistFlags_ok (d := t) hstart hpersist hdone
  have hrun : S.runTail W p d = caught (fun _ => pure ()) (W.emitTerminalSuccess p) u :=
    (bind_of_ok (orTerminal_of_ok (caught_of_ok hfirst))).trans
      (bind_of_ok (orTerminal_of_ok (caught_of_ok hsecond)))
  rw [hrun]
  unfold caught World.emitTerminalSuccess World.send
  cases W.delivers .terminal .done with
  | true => exact ⟨_, rfl, hauth⟩
  | false => exact ⟨_, rfl, hauth⟩

theorem tailEnds_of_ok {d d' : Device} (h : S.runTail W p d = .ok () d') : TailEnds S W := by
  obtain ⟨_, t, hfirst, hrest⟩ := bind_eq_ok.1 h
  obtain ⟨_, u, hsecond, -⟩ := bind_eq_ok.1 hrest
  have hreload : Reloaded S W := by
    by_contra hno
    obtain ⟨e, t', herr, -⟩ := runReloadServices_error hno d
    rw [inPhase_eq_ok (orTerminal_eq_ok hfirst)] at herr
    cases herr
  exact ⟨hreload, runPersistFlags_eq_ok (inPhase_eq_ok (orTerminal_eq_ok hsecond))⟩

/-! ## Failed runs -/

/-- The worlds answer alike from the reload on, and put the same files
back. -/
structure SameEnd (W W' : World) : Prop where
  reload : W'.delivers .reloadServices = W.delivers .reloadServices
  flags : W'.delivers .persistFlags = W.delivers .persistFlags
  reloads : W'.reloads = W.reloads
  restarts : W'.restarts = W.restarts
  persists : W'.persists = W.persists
  writesFile : W'.writesFile = W.writesFile

/-- The guard lets the next run start, once its own listing of the radios is
not refused. -/
def Admits (d : Device) : Prop :=
  ∀ fate : Fate, fate.refuses d.host.tick = false →
    succeeds checkReapplyGuard (d.under fate) = true

/-- Whatever fails before the reload: a run that fails leaves a device that
does not say it is set up and can be tried again, and a device says that it
is set up only once it asks for passwords. -/
def Retriable (S : Service) (W : World) (profile : Option MeshNodeProfile) (d : Device) : Prop :=
  ∀ (W' : World) (fate : Fate), SameEnd W W' →
    (∀ f d', S.applySetup W' profile (d.under fate) = .error f d' →
      Reports S d' false ∧ Admits d') ∧
    (Reports S (final (S.applySetup W' profile) (d.under fate)) true →
      (final (S.applySetup W' profile) (d.under fate)).authEnable = true)

/-- What it takes: the last two phases end well, LuCI's mark is taken back
by the rollback, and there is a HaLow radio in memory, and in the file it is
read back from. -/
def Forgetful (S : Service) (W : World) (d : Device) : Prop :=
  TailEnds S W ∧
    (S.snapshotter = true ∧ d.host.tree.disk "luci" ≠ none ∧ W.writesFile "luci" = true) ∧
    HalowInMemory d.host.tree ∧
    (W.writesFile "wireless" = true → ∀ c, d.host.tree.disk "wireless" = some c →
      hasHalow c = true)

theorem tailEnds_congr {W' : World} (h : SameEnd W W') : TailEnds S W' ↔ TailEnds S W := by
  have hone : W'.reloadOneService = W.reloadOneService := by
    funext svc
    rw [World.reloadOneService, World.reloadOneService, h.reloads, h.restarts]
  unfold TailEnds Reloaded
  rw [h.reload, h.flags, h.persists, hone]

theorem halowInMemory_iff {t : Tree} : HalowInMemory t ↔ halowRadios t ≠ [] := by
  unfold HalowInMemory halowRadios hasHalow
  cases hmem : t.mem "wireless" with
  | none => simp
  | some c =>
      have hmorse : (fun dev => morseType (c.get dev "type")) = isMorseDevice t :=
        funext fun dev => (isMorseDevice_eq hmem dev).symm
      simp only [Option.some.injEq, exists_eq_left', hmorse]
      rw [List.any_eq_true, Ne, List.filter_eq_nil_iff]
      push Not
      rfl

/-- The mark is not there to be read. -/
def Unmarked (t : Tree) : Prop := t.get "luci" "wizard" "used" = []

theorem used_of_unmarked {t : Tree} (h : Unmarked t) : legacyLuciWizardUsed t = false := by
  unfold legacyLuciWizardUsed
  rw [h]

/-- A device that is not marked and has a HaLow radio can be tried again. -/
theorem retriable_state {d : Device} (henabled : d.setupEnabled = true)
    (hcomplete : d.setupComplete = false) (hmark : Unmarked d.host.tree)
    (hhalow : HalowInMemory d.host.tree) : Reports S d false ∧ Admits d := by
  have hused := used_of_unmarked hmark
  refine ⟨reports_iff.2 (by rw [hcomplete, hused]; rfl), fun fate hfate => ?_⟩
  exact (succeeds_guard_iff _).2 ⟨henabled, hcomplete, hused, hfate, hhalow⟩

theorem radios_runMutationPhases : Within (OnHost (Looks radios)) (S.runMutationPhases W p) :=
  within_forM_of_mem fun _ hph => onHost_runNamed (radios_mutationPhases hph)

/-- What a rollback leaves of the mark and of the radios. -/
theorem rollback_retriable {d e t : Device} (hforget : Forgetful S W d)
    (hfile : ∀ c, d.host.tree.disk "luci" = some c → c.get "wizard" "used" = [])
    (htree : e.host.tree = d.host.tree)
    (hrun : t.host = (final (S.runMutationPhases W p) e).host) :
    Unmarked (W.rollback (snapshotOf S d.host.tree) t).host.tree ∧
      HalowInMemory (W.rollback (snapshotOf S d.host.tree) t).host.tree := by
  obtain ⟨-, ⟨hsnap, hluci, hback⟩, hhalow, hwireless⟩ := hforget
  have hundo : (W.rollback (snapshotOf S d.host.tree) t).host.tree =
      W.restore (wizardConfigs.map fun c => (c, d.host.tree.disk c)) t.host.tree := by
    rw [snapshotOf, if_pos hsnap]
    rfl
  have hspec := restore_spec W d.host.tree.disk wizardConfigs t.host.tree
  rw [hundo]
  constructor
  · obtain ⟨c, hc⟩ := Option.ne_none_iff_exists'.1 hluci
    have hmem := (hspec "luci").2
    rw [if_pos ⟨by decide, hback⟩, hc, Option.some_or] at hmem
    unfold Unmarked
    rw [Tree.get_of_mem hmem]
    exact hfile c hc
  · have hedited : HalowInMemory t.host.tree := by
      have hkeep := radios_runMutationPhases (S := S) (W := W) (p := p) e
      have hradios : radios t.host.tree = radios d.host.tree := by
        rw [hrun, ← htree]
        exact hkeep
      rw [halowInMemory_iff, halowRadios_congr hradios, ← halowInMemory_iff]
      exact hhalow
    have hmem := (hspec "wireless").2
    by_cases hput : W.writesFile "wireless" = true
    · rw [if_pos ⟨by decide, hput⟩] at hmem
      cases hdisk : d.host.tree.disk "wireless" with
      | some c =>
          rw [hdisk, Option.some_or] at hmem
          exact ⟨c, hmem, hwireless hput c hdisk⟩
      | none =>
          rw [hdisk, Option.none_or] at hmem
          obtain ⟨c, hc, hh⟩ := hedited
          exact ⟨c, hmem.trans hc, hh⟩
    · rw [if_neg fun hboth => hput hboth.2] at hmem
      obtain ⟨c, hc, hh⟩ := hedited
      exact ⟨c, hmem.trans hc, hh⟩

theorem forgetful_congr {d : Device} {W' : World} (h : SameEnd W W') (hforget : Forgetful S W d) :
    Forgetful S W' d := by
  unfold Forgetful at *
  rwa [tailEnds_congr h, h.writesFile]

section Claim

variable {d : Device} (henabled : d.setupEnabled = true) (hcomplete : d.setupComplete = false)
  (hmark : Unmarked d.host.tree)
  (hfile : ∀ c, d.host.tree.disk "luci" = some c → c.get "wizard" "used" = [])
include henabled hcomplete hmark hfile

theorem retriable_of_error {fate : Fate} {profile : Option MeshNodeProfile} {f : Fault}
    {d' : Device} (hforget : Forgetful S W d)
    (hrun : S.applySetup W profile (d.under fate) = .error f d') : Reports S d' false ∧ Admits d' := by
  cases profile with
  | none =>
      obtain ⟨-, rfl⟩ := EStateM.Result.error.inj hrun
      exact retriable_state henabled hcomplete hmark hforget.2.2.1
  | some p =>
      rcases applySetup_eq_error hrun with hhead | ⟨t, -, htail⟩
      · obtain ⟨he, hc, -⟩ := unflagged_runHead.error hhead
        have henabled' : d'.setupEnabled = true := he.trans henabled
        have hcomplete' : d'.setupComplete = false := hc.trans hcomplete
        rcases runHead_eq_error hhead with ⟨htree, -⟩ | ⟨e, t, htree, hmut, hhost⟩
        · have hsame : d'.host.tree = d.host.tree := htree
          exact retriable_state henabled' hcomplete' (by rw [hsame]; exact hmark)
            (by rw [hsame]; exact hforget.2.2.1)
        · have hundone := rollback_retriable (d := d) hforget hfile htree hmut
          refine retriable_state henabled' hcomplete' ?_ ?_
          · rw [hhost]
            exact hundone.1
          · rw [hhost]
            exact hundone.2
      · obtain ⟨u, hok, -⟩ := runTail_ok (p := p) hforget.1 t
        rw [hok] at htail
        cases htail

theorem retriable_of_forgetful {profile : Option MeshNodeProfile} (hforget : Forgetful S W d) :
    Retriable S W profile d := by
  intro W' fate hsame
  have hforget' := forgetful_congr hsame hforget
  have herror : ∀ f d', S.applySetup W' profile (d.under fate) = .error f d' →
      Reports S d' false ∧ Admits d' := fun f d' hrun =>
    retriable_of_error henabled hcomplete hmark hfile hforget' hrun
  refine ⟨herror, fun hreports => ?_⟩
  cases hrun : S.applySetup W' profile (d.under fate) with
  | error f d' =>
      rw [final_of_error hrun] at hreports
      have hno := (herror f d' hrun).1
      rw [reports_iff] at hreports hno
      rw [← hreports] at hno
      cases hno
  | ok _ d' =>
      rw [final_of_ok hrun]
      cases profile with
      | none => cases hrun
      | some p =>
          obtain ⟨_, t, -, htail⟩ := bind_eq_ok.1 (show (S.runHead W' p >>= fun _ =>
            S.runTail W' p) (d.under fate) = .ok () d' from hrun)
          obtain ⟨u, hok, hauth⟩ := runTail_ok (p := p) hforget'.1 t
          rw [hok] at htail
          obtain ⟨-, rfl⟩ := EStateM.Result.ok.inj htail
          exact hauth

end Claim

/-! ## What it takes -/

/-- A world with the end of another. -/
def World.endingLike (W₀ W : World) : World :=
  { W₀ with
    delivers := fun ph => if ph = .reloadServices ∨ ph = .persistFlags then W.delivers ph
      else W₀.delivers ph
    reloads := W.reloads
    restarts := W.restarts
    persists := W.persists
    writesFile := W.writesFile }

theorem sameEnd_endingLike (W₀ W : World) : SameEnd W (W₀.endingLike W) :=
  ⟨rfl, rfl, rfl, rfl, rfl, rfl⟩

theorem sameEnd_mute (W₀ W : World) : SameEnd W (W₀.endingLike W).mute := by
  refine ⟨?_, ?_, rfl, rfl, rfl, rfl⟩
  · funext st
    simp [World.mute, World.endingLike]
  · funext st
    simp [World.mute, World.endingLike]

/-- A run that comes to the reload does so whatever the end will be. -/
theorem runHead_endingLike {W₀ : World} {d d' : Device} (h : S.runHead W₀ p d = .ok () d') :
    S.runHead (W₀.endingLike W) p d = .ok () d' := by
  have hearly : ∀ ph, Phase.early ph → (W₀.endingLike W).delivers ph = W₀.delivers ph := by
    intro ph hph
    refine if_neg ?_
    rintro (rfl | rfl) <;> simp [Phase.early] at hph
  obtain ⟨t, -, hpass, hrun⟩ := runHead_of_alike hearly rfl h
  have hword : (W₀.endingLike W).delivers .password = W₀.delivers .password :=
    rfl
  have hsame : S.runPassword (W₀.endingLike W) p = S.runPassword W₀ p := by
    unfold Service.runPassword
    rw [runPhase_congr hword]
    rfl
  rw [hrun, hsame]
  exact orTerminal_of_ok (caught_of_ok hpass)

/-- A device that says it is set up is not one that says it is not. -/
theorem not_marked_of_reports {d : Device} (h : Reports S d false) : ¬ Marked d.host.tree := by
  intro hmark
  rw [reports_iff, used_of_marked hmark, Bool.or_true] at h
  cases h

/-- Where the profile can be applied, some failure brings out each thing that
is missing. -/
theorem forgetful_of_retriable {d : Device} (hviable : Viable S p d)
    (hretry : Retriable S W (some p) d) : Forgetful S W d := by
  obtain ⟨W₀, fate, d', -, hhead₀⟩ := hviable
  have hhead : S.runHead (W₀.endingLike W) p (d.under fate) = .ok () d' := runHead_endingLike hhead₀
  obtain ⟨-, g, -, hbodies⟩ := runHead_eq_ok hhead
  have hmarked := marked_of_bodies hbodies
  obtain ⟨_, _, hguard, -⟩ := bind_eq_ok.1 hhead
  have hhalow : HalowInMemory d.host.tree := by
    have hpass : succeeds checkReapplyGuard (d.under fate) = true := by
      rw [Fallible.succeeds, hguard]
    exact ((succeeds_guard_iff _).1 hpass).2.2.2.2
  -- a failure after the password leaves the mark
  have htail : TailEnds S W := by
    rw [← tailEnds_congr (sameEnd_endingLike W₀ W)]
    cases hrun : S.runTail (W₀.endingLike W) p d' with
    | ok _ u => exact tailEnds_of_ok hrun
    | error f u =>
        have hboth : S.applySetup (W₀.endingLike W) (some p) (d.under fate) = .error f u :=
          (bind_of_ok hhead).trans hrun
        have hreports := ((hretry _ fate (sameEnd_endingLike W₀ W)).1 f u hboth).1
        have hhost : u.host = d'.host := by
          have hsame := runTail_host (S := S) (W := W₀.endingLike W) (p := p) d'
          rwa [final_of_error hrun] at hsame
        exact absurd (by rw [hhost]; exact hmarked) (not_marked_of_reports hreports)
  -- one at the password leaves it where it cannot be taken back
  obtain ⟨f, t, u, herr, -, hhost, hundo⟩ := applySetup_mute hhead
  obtain ⟨hreports, hadmits⟩ := (hretry _ fate (sameEnd_mute W₀ W)).1 f u herr
  have hno := not_marked_of_reports hreports
  have hkept : u.host.tree.mem "luci" ≠ t.host.tree.mem "luci" := by
    intro hsame
    refine hno ?_
    rw [← hhost] at hmarked
    unfold Marked Uci.Tree.get at *
    rwa [hsame]
  have hsnap : S.snapshotter = true := by
    by_contra hoff
    rw [snapshotOf, if_neg hoff] at hundo
    exact hkept (by rw [hundo]; rfl)
  have htree : u.host.tree = (W₀.endingLike W).mute.restore
      (wizardConfigs.map fun c => (c, d.host.tree.disk c)) t.host.tree := by
    rw [hundo, snapshotOf, if_pos hsnap]
    rfl
  have hspec := restore_spec (W₀.endingLike W).mute d.host.tree.disk wizardConfigs t.host.tree
  rw [← htree] at hspec
  refine ⟨htail, ⟨hsnap, fun hnone => ?_, ?_⟩, hhalow, fun hput c hc => ?_⟩
  · refine hkept ((hspec "luci").2.trans ?_)
    rw [hnone, Option.none_or, ite_self]
  · by_contra hno
    refine hkept ((hspec "luci").2.trans (if_neg fun hboth => hno hboth.2))
  · have hmem := (hspec "wireless").2
    rw [if_pos ⟨by decide, hput⟩, hc, Option.some_or] at hmem
    have hpass := hadmits ⟨fun _ => false, fun _ _ => true⟩ rfl
    obtain ⟨c', hc', hh⟩ := ((succeeds_guard_iff _).1 hpass).2.2.2.2
    obtain rfl : c = c' := Option.some.inj (hmem.symm.trans hc')
    exact hh

/-- **Trying again.** On a device where the wizard is enabled and neither
wizard was ever used, every failed run can be retried, and the device says
that it is set up only once it asks for passwords, provided that the last two
phases end well, that the rollback can take LuCI's mark back and that there
is a HaLow radio to be found. Where the profile can be applied at all, that
is also needed. -/
theorem failed_run_retriable_iff {d : Device} (henabled : d.setupEnabled = true)
    (hcomplete : d.setupComplete = false) (hmark : Unmarked d.host.tree)
    (hfile : ∀ c, d.host.tree.disk "luci" = some c → c.get "wizard" "used" = []) :
    (∀ profile, Forgetful S W d → Retriable S W profile d) ∧
      (Viable S p d → (Retriable S W (some p) d ↔ Forgetful S W d)) :=
  ⟨fun _ => retriable_of_forgetful henabled hcomplete hmark hfile, fun hviable =>
    ⟨forgetful_of_retriable hviable, retriable_of_forgetful henabled hcomplete hmark hfile⟩⟩

/-- The bench on a quiet day. -/
theorem failed_run_retriable_bench :
    Retriable Bench.service Bench.calm (some Bench.profile)
      (Bench.device (Bench.files Bench.wireless Bench.network (some Config.empty))) :=
  (failed_run_retriable_iff (p := Bench.profile)
    (d := Bench.device (Bench.files Bench.wireless Bench.network (some Config.empty))) rfl rfl rfl (by
    intro c hc
    obtain rfl := Option.some.inj hc
    rfl)).1 _ ⟨by unfold TailEnds; decide, ⟨rfl, by decide, rfl⟩,
      ⟨Bench.wireless, rfl, by decide +kernel⟩, fun _ c hc => by
        obtain rfl := Option.some.inj hc
        decide +kernel⟩

/-- The client is cut off by the reload, as in a run that was severed: the
run fails, and the device says that it is set up and asks for no
password. -/
theorem severed_run_reports_complete :
    let d := Bench.device (Bench.files Bench.wireless Bench.network (some Config.empty))
    let run := Bench.service.applySetup Bench.severed (some Bench.profile)
    d.setupEnabled = true ∧ d.setupComplete = false ∧ Unmarked d.host.tree ∧
      succeeds run d = false ∧ Reports Bench.service (final run d) true ∧
      succeeds checkReapplyGuard (final run d) = false ∧ (final run d).authEnable = false := by
  intro d run
  have hrun : succeeds run d = false ∧
      true = ((final run d).setupComplete || legacyLuciWizardUsed (final run d).host.tree) ∧
      succeeds checkReapplyGuard (final run d) = false ∧ (final run d).authEnable = false := by
    decide +kernel
  exact ⟨rfl, rfl, rfl, hrun.1, reports_iff.2 hrun.2.1, hrun.2.2.1, hrun.2.2.2⟩

end Setup

end OpenManet
