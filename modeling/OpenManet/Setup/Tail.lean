import OpenManet.Setup.Frame
/-!
# The end of a run

The flags of the daemon's config are written by the last phase alone. From
the service reload on nothing is undone, and three events decide whether the
flags are reached: a client that is cut off before one of them leaves a
device that is configured and does not say so.
-/

namespace OpenManet

namespace Setup

open Uci Fallible Network

variable {S : Service} {W : World} {p : MeshNodeProfile} {α : Type}

/-! ## The flags -/

/-- The bound of programs that leave the daemon's flags alone. -/
def Unflagged : Bound Device where
  rel d d' := d'.setupEnabled = d.setupEnabled ∧ d'.setupComplete = d.setupComplete ∧
    d'.authEnable = d.authEnable
  refl _ := ⟨rfl, rfl, rfl⟩
  trans := by
    rintro s t u ⟨he, hc, ha⟩ ⟨he', hc', ha'⟩
    exact ⟨he'.trans he, hc'.trans hc, ha'.trans ha⟩

theorem unflagged_onTree {ε : Type} (m : EStateM ε Host α) : Within Unflagged (onTree m) := by
  intro d
  unfold final onTree zoom
  cases m d.host <;> exact Unflagged.refl d

theorem unflagged_send (e : Event) : Within Unflagged (W.send e) := by
  intro d
  unfold final World.send
  cases W.delivers e.phase e.status <;> exact Unflagged.refl d

theorem unflagged_emit {ph : Phase} {st : Status} {msg : String} :
    Within Unflagged (W.emit ph st msg) := unflagged_send _

theorem unflagged_runPhase {ph : Phase} {msg : String} {body : App Unit}
    (hbody : Within Unflagged body) : Within Unflagged (W.runPhase ph msg body) :=
  within_bind unflagged_emit fun _ =>
    within_bind (within_caught hbody fun _ =>
      within_bind (within_ignored unflagged_emit) fun _ => within_throw _) fun _ => unflagged_emit

theorem unflagged_inPhase {ph : Phase} {m : App α} (hm : Within Unflagged m) :
    Within Unflagged (inPhase ph m) := within_caught hm fun _ => within_throw _

theorem unflagged_orTerminal {snapshot : Option Snapshot} {m : EStateM (Phase × Err) Device α}
    (hm : Within Unflagged m) : Within Unflagged (W.orTerminal p snapshot m) := by
  refine within_caught hm fun f d => ?_
  have hundo : Unflagged.rel d (W.rollback snapshot d) := by
    unfold World.rollback
    split
    · exact Unflagged.refl d
    · exact Unflagged.refl d
  have hemit : Within Unflagged (W.emitTerminal p f.1 f.2 : EStateM Fault Device α) :=
    within_bind (within_caught (unflagged_send _) fun _ => within_pure _) fun _ => within_throw _
  exact Unflagged.trans hundo (hemit _)

theorem unflagged_checkReapplyGuard : Within Unflagged checkReapplyGuard := by
  have hradio : Within Unflagged (do
      if ← caught (fun _ => pure false) (onTree hasUsableHalowRadio) then pure ()
      else throw ⟨.failedPrecondition, none, "no usable HaLow radio detected on this device"⟩ :
        EStateM Fault Device Unit) :=
    within_bind (within_caught (unflagged_onTree _) fun _ => within_pure _) fun _ =>
      within_ite (within_pure _) (within_throw _)
  intro d
  unfold final checkReapplyGuard
  split_ifs
  · exact Unflagged.refl d
  · exact Unflagged.refl d
  · exact Unflagged.refl d
  · exact hradio d

theorem unflagged_runValidate : Within Unflagged (S.runValidate W p) :=
  within_bind unflagged_emit fun _ =>
    within_bind (within_caught (unflagged_onTree _) fun _ =>
      within_bind (within_ignored unflagged_emit) fun _ => within_throw _) fun _ => unflagged_emit

theorem unflagged_runSnapshot : Within Unflagged (S.runSnapshot W) := by
  refine within_bind unflagged_emit fun _ => within_ite ?_ ?_
  · exact within_bind unflagged_emit fun _ => within_pure _
  · refine within_bind (unflagged_onTree _) fun t => ?_
    split
    · exact within_bind (within_ignored unflagged_emit) fun _ => within_throw _
    · exact within_bind unflagged_emit fun _ => within_pure _

theorem unflagged_runMutationPhases : Within Unflagged (S.runMutationPhases W p) :=
  within_forM fun _ => within_caught (unflagged_runPhase (unflagged_onTree _)) fun _ =>
    within_throw _

theorem unflagged_runPassword : Within Unflagged (S.runPassword W p) := by
  refine unflagged_runPhase (within_ite (within_throw _) fun d => ?_)
  unfold final
  dsimp only
  split_ifs
  · exact Unflagged.refl d
  · exact Unflagged.refl d

/-- **The run up to the password leaves the flags alone.** -/
theorem unflagged_runHead : Within Unflagged (S.runHead W p) :=
  within_bind unflagged_checkReapplyGuard fun _ =>
    within_bind (unflagged_orTerminal (unflagged_inPhase unflagged_runValidate)) fun _ =>
      within_bind (unflagged_orTerminal (unflagged_inPhase unflagged_runSnapshot)) fun _ =>
        within_bind (unflagged_orTerminal unflagged_runMutationPhases) fun _ =>
          unflagged_orTerminal (unflagged_inPhase unflagged_runPassword)

/-- A run passes the guard on a device that is not set up yet. -/
theorem setupComplete_of_guard {d d' : Device} (h : checkReapplyGuard d = .ok () d') :
    d.setupComplete = false := by
  unfold checkReapplyGuard at h
  split_ifs at h with henabled hcomplete hused
  simpa using hcomplete

theorem setupComplete_of_runHead {d d' : Device} (h : S.runHead W p d = .ok () d') :
    d'.setupComplete = false := by
  obtain ⟨_, t, hguard, -⟩ := bind_eq_ok.1 h
  have hkeep := unflagged_runHead (S := S) (W := W) (p := p) d
  rw [final_of_ok h] at hkeep
  exact hkeep.2.1.trans (setupComplete_of_guard hguard)

/-! ## Steps that only send -/

/-- The device apart from its stream. -/
def Device.quiet (d : Device) : Device := { d with sent := [] }

/-- The bound of programs that do nothing but send. -/
def Sends : Bound Device where
  rel d d' := d'.quiet = d.quiet
  refl _ := rfl
  trans h h' := h'.trans h

theorem sends_send (e : Event) : Within Sends (W.send e) := by
  intro d
  unfold final World.send
  cases W.delivers e.phase e.status <;> rfl

theorem sends_emit {ph : Phase} {st : Status} {msg : String} : Within Sends (W.emit ph st msg) :=
  sends_send _

/-- A run that fails on its way to the terminal event is undone, and
nothing else happens to it. -/
theorem orTerminal_of_error (snapshot : Option Snapshot) {m : EStateM (Phase × Err) Device α}
    {d t : Device} {f : Phase × Err} (h : m d = .error f t) :
    ∃ fault t', W.orTerminal p snapshot m d = .error fault t' ∧ fault.phase = some f.1 ∧
      t'.quiet = (W.rollback snapshot t).quiet := by
  have hrun : W.orTerminal p snapshot m d = W.emitTerminal p f.1 f.2 (W.rollback snapshot t) :=
    caught_of_error h
  have hsend : ∃ t', caught (fun _ => pure ()) (W.send ⟨.terminal, .failed, "",
      some ⟨false, some f.1, expectedSSID p, expectedURL p⟩⟩) (W.rollback snapshot t)
      = (.ok () t' : EStateM.Result Fault Device Unit) ∧
        t'.quiet = (W.rollback snapshot t).quiet := by
    unfold caught World.send
    cases W.delivers .terminal .failed
    · exact ⟨_, rfl, rfl⟩
    · exact ⟨_, rfl, rfl⟩
  obtain ⟨t', hsent, hquiet⟩ := hsend
  exact ⟨_, t', hrun.trans (bind_of_ok hsent), rfl, hquiet⟩

theorem orTerminal_of_ok {snapshot : Option Snapshot} {m : EStateM (Phase × Err) Device α}
    {d t : Device} {a : α} (h : m d = .ok a t) : W.orTerminal p snapshot m d = .ok a t :=
  caught_of_ok h

/-! ## One phase -/

/-- The device when a phase has said that it starts. -/
def Device.told (d : Device) (ph : Phase) (st : Status) (msg : String) : Device :=
  { d with sent := d.sent ++ [⟨ph, st, msg, none⟩] }

theorem emit_lost {ph : Phase} {st : Status} {msg : String} (h : W.delivers ph st = false)
    (d : Device) : W.emit ph st msg d = .error ⟨"stream closed", false⟩ d := by
  simp [World.emit, World.send, h]

theorem emit_taken {ph : Phase} {st : Status} {msg : String} (h : W.delivers ph st = true)
    (d : Device) : W.emit ph st msg d = .ok () (d.told ph st msg) := by
  simp [World.emit, World.send, h, Device.told]

section Phase

variable {ph : Phase} {msg : String} {body : App Unit} {d t : Device} {e : Err}

/-- A phase whose first word is lost does nothing. -/
theorem runPhase_lost (h : W.delivers ph .started = false) :
    W.runPhase ph msg body d = .error ⟨"stream closed", false⟩ d :=
  bind_of_error (emit_lost h d)

theorem runPhase_of_error (h : W.delivers ph .started = true)
    (hbody : body (d.told ph .started msg) = .error e t) :
    ∃ t', W.runPhase ph msg body d = .error e t' ∧ t'.quiet = t.quiet := by
  refine ⟨final (W.emit ph .failed e.text) t, ?_, sends_send _ t⟩
  exact (bind_of_ok (emit_taken h d)).trans (bind_of_error (caught_of_error hbody))

/-- A phase that was done may still fail: its last word may be lost. -/
theorem runPhase_of_done_lost (h : W.delivers ph .started = true)
    (hbody : body (d.told ph .started msg) = .ok () t) (hdone : W.delivers ph .done = false) :
    W.runPhase ph msg body d = .error ⟨"stream closed", false⟩ t :=
  (bind_of_ok (emit_taken h d)).trans ((bind_of_ok (caught_of_ok hbody)).trans (emit_lost hdone t))

theorem runPhase_of_ok (h : W.delivers ph .started = true)
    (hbody : body (d.told ph .started msg) = .ok () t) (hdone : W.delivers ph .done = true) :
    W.runPhase ph msg body d = .ok () (t.told ph .done "") :=
  (bind_of_ok (emit_taken h d)).trans
    ((bind_of_ok (caught_of_ok hbody)).trans (emit_taken hdone t))

end Phase

theorem persistSetupAndAuth_of_persists {W : World} (hpersist : W.persists = true) (d : Device) :
    W.persistSetupAndAuth true true d =
      .ok () { d with setupComplete := true, authEnable := true } := by
  simp [World.persistSetupAndAuth, hpersist]

/-! ## The last two phases -/

/-- The reload phase ends well: both its words are taken, and some service
was reloaded where there is something to reload with. -/
def Reloaded (S : Service) (W : World) : Prop :=
  W.delivers .reloadServices .started = true ∧ W.delivers .reloadServices .done = true ∧
    (S.reloader = true → reloadServices.any W.reloadOneService = true)

instance : Decidable (Reloaded S W) := inferInstanceAs (Decidable (_ ∧ _ ∧ _))

theorem runReloadServices_ok (h : Reloaded S W) (d : Device) :
    ∃ d', S.runReloadServices W d = .ok () d' ∧ d'.quiet = d.quiet := by
  obtain ⟨hstart, hdone, hsome⟩ := h
  unfold Service.runReloadServices
  cases hr : S.reloader with
  | false => exact ⟨_, runPhase_of_ok hstart rfl hdone, rfl⟩
  | true =>
      rw [hsome hr]
      exact ⟨_, runPhase_of_ok hstart rfl hdone, rfl⟩

theorem runReloadServices_error (h : ¬ Reloaded S W) (d : Device) :
    ∃ e d', S.runReloadServices W d = .error e d' ∧ d'.quiet = d.quiet := by
  unfold Service.runReloadServices
  cases hstart : W.delivers .reloadServices .started with
  | false => split <;> exact ⟨_, _, runPhase_lost hstart, rfl⟩
  | true =>
      cases hsome : (!S.reloader || reloadServices.any W.reloadOneService) with
      | true =>
          -- the body does its work, so it is the last word that is lost
          have hdone : W.delivers .reloadServices .done = false := by
            by_contra hdone
            refine h ⟨hstart, by simpa using hdone, fun hr => ?_⟩
            simpa [hr] using hsome
          split
          · exact ⟨_, _, runPhase_of_done_lost hstart rfl hdone, rfl⟩
          · rw [if_pos (by grind)]
            exact ⟨_, _, runPhase_of_done_lost hstart rfl hdone, rfl⟩
      | false =>
          simp only [Bool.or_eq_false_iff, Bool.not_eq_false'] at hsome
          rw [if_neg (by simp [hsome.1]), if_neg (by simp [hsome.2])]
          have hbody : ∀ e : Err, (throw e : App Unit)
              (d.told .reloadServices .started "reloading network services") = .error e _ :=
            fun _ => rfl
          obtain ⟨t', hrun, hquiet⟩ := runPhase_of_error hstart (hbody _)
          exact ⟨_, _, hrun, hquiet⟩

/-- The flags are written where the phase is let start and the file can be
written, whatever becomes of its last word. -/
theorem runPersistFlags_quiet (d : Device) :
    (final W.runPersistFlags d).quiet =
      if W.delivers .persistFlags .started = true ∧ W.persists = true then
        { d.quiet with setupComplete := true, authEnable := true }
      else d.quiet := by
  unfold World.runPersistFlags
  cases hstart : W.delivers .persistFlags .started with
  | false =>
      rw [final_of_error (runPhase_lost hstart)]
      simp
  | true =>
      cases hpersist : W.persists with
      | false =>
          have hbody : ∀ t : Device, W.persistSetupAndAuth true true t
              = .error ⟨"writing config file: input/output error", false⟩ t := by
            intro t
            simp [World.persistSetupAndAuth, hpersist]
          obtain ⟨t', hrun, hquiet⟩ := runPhase_of_error hstart
            (hbody (d.told .persistFlags .started "persisting setup.complete and auth.enable"))
          rw [final_of_error hrun, hquiet]
          simp [Device.told, Device.quiet]
      | true =>
          have hbody := persistSetupAndAuth_of_persists hpersist
            (d.told .persistFlags .started "persisting setup.complete and auth.enable")
          cases hdone : W.delivers .persistFlags .done with
          | false =>
              rw [final_of_error (runPhase_of_done_lost hstart hbody hdone)]
              simp [Device.told, Device.quiet]
          | true =>
              rw [final_of_ok (runPhase_of_ok hstart hbody hdone)]
              simp [Device.told, Device.quiet]

/-- A step that is not undone leaves behind what its program does. -/
theorem orTerminal_quiet (ph : Phase) (m : App Unit) (d : Device) :
    (final (W.orTerminal p none (inPhase ph m)) d).quiet = (final m d).quiet := by
  cases hm : m d with
  | ok _ t =>
      have hrun : inPhase ph m d = .ok () t := caught_of_ok hm
      rw [final_of_ok (orTerminal_of_ok hrun), final_of_ok hm]
  | error e t =>
      have hrun : inPhase ph m d = .error (ph, e) t := caught_of_error hm
      obtain ⟨fault, t', herr, -, hquiet⟩ := orTerminal_of_error (W := W) (p := p)
        none hrun
      rw [final_of_error herr, final_of_error hm, hquiet]
      rfl

/-- **What the last two phases leave behind.** -/
theorem runTail_quiet (d : Device) :
    (final (S.runTail W p) d).quiet =
      if Reloaded S W ∧ W.delivers .persistFlags .started = true ∧ W.persists = true then
        { d.quiet with setupComplete := true, authEnable := true }
      else d.quiet := by
  by_cases hreload : Reloaded S W
  · obtain ⟨t, hrun, hquiet⟩ := runReloadServices_ok hreload d
    have hfirst : W.orTerminal p none (inPhase .reloadServices (S.runReloadServices W)) d
        = .ok () t := orTerminal_of_ok (caught_of_ok hrun)
    have hrest : (final (S.runTail W p) d).quiet = (final W.runPersistFlags t).quiet := by
      rw [← orTerminal_quiet (p := p) .persistFlags]
      cases hsecond : W.orTerminal p none (inPhase .persistFlags W.runPersistFlags) t with
      | error fault u =>
          have hboth : S.runTail W p d = .error fault u :=
            (bind_of_ok hfirst).trans (bind_of_error hsecond)
          rw [final_of_error hsecond, final_of_error hboth]
      | ok _ u =>
          have hlast : final (S.runTail W p) d = final (caught (fun _ => pure ())
              (W.emitTerminalSuccess p) : EStateM Fault Device Unit) u := by
            unfold final
            rw [show S.runTail W p d = _ from (bind_of_ok hfirst).trans (bind_of_ok hsecond)]
          rw [hlast, final_of_ok hsecond]
          exact within_caught (sends_send _) (fun _ => within_pure _) u
    rw [hrest, runPersistFlags_quiet, hquiet]
    simp [hreload]
  · obtain ⟨e, t, hrun, hquiet⟩ := runReloadServices_error hreload d
    have hfirst : inPhase .reloadServices (S.runReloadServices W) d
        = .error (.reloadServices, e) t := caught_of_error hrun
    obtain ⟨fault, t', herr, -, hquiet'⟩ := orTerminal_of_error (W := W) (p := p)
      none hfirst
    rw [final_of_error (show S.runTail W p d = _ from bind_of_error herr), hquiet']
    simpa [hreload, World.rollback] using hquiet

/-- **A cut stream.** On a device whose run reached the reload phase, where
some service could be reloaded and the flags could be written, the flags are
on at the end exactly when the client was still there for three events: the
reload phase starting and done, and the flag phase starting. -/
theorem flags_persisted_iff {d d' : Device} (hhead : S.runHead W p d = .ok () d')
    (hreload : S.reloader = true → reloadServices.any W.reloadOneService = true)
    (hpersist : W.persists = true) :
    ((final (S.applySetup W (some p)) d).setupComplete = true ∧
        (final (S.applySetup W (some p)) d).authEnable = true) ↔
      (W.delivers .reloadServices .started = true ∧ W.delivers .reloadServices .done = true ∧
        W.delivers .persistFlags .started = true) := by
  have hrun : final (S.applySetup W (some p)) d = final (S.runTail W p) d' := by
    unfold final
    rw [show S.applySetup W (some p) d = _ from bind_of_ok hhead]
  have hquiet := runTail_quiet (S := S) (W := W) (p := p) d'
  rw [← hrun] at hquiet
  have hcomplete := congrArg Device.setupComplete hquiet
  have hauth := congrArg Device.authEnable hquiet
  have hbefore := setupComplete_of_runHead hhead
  constructor
  · rintro ⟨hc, -⟩
    by_contra hlost
    rw [if_neg (fun h => hlost ⟨h.1.1, h.1.2.1, h.2.1⟩)] at hcomplete
    simp [Device.quiet, hc, hbefore] at hcomplete
  · rintro ⟨hstart, hdone, hflags⟩
    rw [if_pos ⟨⟨hstart, hdone, hreload⟩, hflags, hpersist⟩] at hcomplete hauth
    exact ⟨hcomplete, hauth⟩

/-- On a quiet day the flags are on. -/
theorem flags_persisted_calm :
    ((final (Bench.service.applySetup Bench.calm (some Bench.profile))
          (Bench.device (Bench.files Bench.wireless Bench.network (some Config.empty)))).setupComplete
          = true ∧
        (final (Bench.service.applySetup Bench.calm (some Bench.profile))
          (Bench.device (Bench.files Bench.wireless Bench.network (some Config.empty)))).authEnable
          = true) ↔
      (Bench.calm.delivers .reloadServices .started = true ∧
        Bench.calm.delivers .reloadServices .done = true ∧
        Bench.calm.delivers .persistFlags .started = true) :=
  flags_persisted_iff (ok_of_succeeds (by decide +kernel)) (by decide +kernel) rfl

/-- The client that the network reload cuts off. -/
def Bench.severed : World :=
  { Bench.calm with delivers := fun ph st => !(ph = .reloadServices && st = .done) }

/-- Every service is reloaded, the flags could be written, and only the word
that the reload is done is lost: the flags stay off. -/
theorem severed_run_leaves_flags_off :
    let d := Bench.device (Bench.files Bench.wireless Bench.network (some Config.empty))
    succeeds (Bench.service.runHead Bench.severed Bench.profile) d = true ∧
      reloadServices.all Bench.severed.reloadOneService = true ∧ Bench.severed.persists = true ∧
      (final (Bench.service.applySetup Bench.severed (some Bench.profile)) d).setupComplete
        = false := by
  decide +kernel

end Setup

end OpenManet
