import OpenManet.Setup.Tail
/-!
# Runs of the wizard

What a run does to the tree, apart from the stream: the bodies of the phases
one after the other, from a tree that the guard, the checks and the snapshot
leave as it is. A run that fails has failed before the first edit, or was
undone, or had reached the reload.
-/

namespace OpenManet

namespace Setup

open Uci Fallible Network

variable {S : Service} {W : World} {p : MeshNodeProfile} {α : Type} {B : Bound Host}

/-! ## Bounds on the tree -/

/-- A bound on what happens to the tree, as one on the device. -/
def OnHost (B : Bound Host) : Bound Device where
  rel d d' := B.rel d.host d'.host
  refl d := B.refl d.host
  trans := B.trans

theorem within_onTree {ε : Type} {m : EStateM ε Host α} (hm : Within B m) :
    Within (OnHost B) (onTree m) :=
  within_zoom hm fun _ _ h => h

theorem host_of_quiet {d d' : Device} (h : d'.quiet = d.quiet) : d'.host = d.host := by
  have hhost := congrArg Device.host h
  exact hhost

theorem onHost_of_sends {ε : Type} {m : EStateM ε Device α} (hm : Within Sends m) :
    Within (OnHost B) m := by
  intro d
  have hhost : (final m d).host = d.host := host_of_quiet (hm d)
  show B.rel d.host (final m d).host
  rw [hhost]
  exact B.refl _

theorem onHost_emit {ph : Phase} {st : Status} {msg : String} :
    Within (OnHost B) (W.emit ph st msg) := onHost_of_sends sends_emit

theorem onHost_runPhase {ph : Phase} {msg : String} {body : App Unit}
    (hbody : Within (OnHost B) body) : Within (OnHost B) (W.runPhase ph msg body) :=
  within_bind onHost_emit fun _ =>
    within_bind (within_caught hbody fun _ =>
      within_bind (within_ignored onHost_emit) fun _ => within_throw _) fun _ => onHost_emit

theorem onHost_runNamed {ph : Phase × String × Prog Unit} (hph : Within B ph.2.2) :
    Within (OnHost B) (W.runNamed ph) :=
  within_caught (onHost_runPhase (within_onTree hph)) fun _ => within_throw _

/-! ## Phases that end well -/

/-- A phase that ends well has run its body. -/
theorem runPhase_eq_ok {ph : Phase} {msg : String} {body : App Unit} {d d' : Device}
    (h : W.runPhase ph msg body d = .ok () d') :
    ∃ t, body (d.told ph .started msg) = .ok () t ∧ d' = t.told ph .done "" := by
  cases hstart : W.delivers ph .started with
  | false =>
      rw [runPhase_lost hstart] at h
      cases h
  | true =>
      cases hbody : body (d.told ph .started msg) with
      | error e t =>
          obtain ⟨t', hrun, -⟩ := runPhase_of_error hstart hbody
          rw [hrun] at h
          cases h
      | ok _ t =>
          cases hdone : W.delivers ph .done with
          | false =>
              rw [runPhase_of_done_lost hstart hbody hdone] at h
              cases h
          | true =>
              rw [runPhase_of_ok hstart hbody hdone] at h
              obtain ⟨-, rfl⟩ := EStateM.Result.ok.inj h
              exact ⟨t, rfl, rfl⟩

theorem onTree_eq_ok {ε : Type} {m : EStateM ε Host α} {d d' : Device} {a : α}
    (h : onTree m d = .ok a d') : m d.host = .ok a d'.host := by
  unfold onTree zoom at h
  cases hm : m d.host with
  | ok b t =>
      rw [hm] at h
      obtain ⟨rfl, rfl⟩ := EStateM.Result.ok.inj h
      rfl
  | error e t =>
      rw [hm] at h
      cases h

theorem inPhase_eq_ok {ph : Phase} {m : App α} {d d' : Device} {a : α}
    (h : inPhase ph m d = .ok a d') : m d = .ok a d' := by
  cases hm : m d with
  | ok b t =>
      rw [inPhase, caught_of_ok hm] at h
      obtain ⟨rfl, rfl⟩ := EStateM.Result.ok.inj h
      rfl
  | error e t =>
      rw [inPhase, caught_of_error hm] at h
      cases h

theorem runNamed_eq_ok {ph : Phase × String × Prog Unit} {d d' : Device}
    (h : W.runNamed ph d = .ok () d') : ph.2.2 d.host = .ok () d'.host := by
  obtain ⟨t, hbody, rfl⟩ := runPhase_eq_ok (inPhase_eq_ok h)
  have hrun := onTree_eq_ok hbody
  exact hrun

/-- The bodies of some phases, one after the other. -/
def bodies (l : List (Phase × String × Prog Unit)) : Prog Unit := l.forM (·.2.2)

/-- The states between the phases of a run that gets to its end. -/
theorem states_of_bodies {h h' : Host} (hrun : bodies (S.mutationPhases p) h = .ok () h') :
    ∃ h₁ h₂ h₃ h₄ h₅ h₆ h₇ h₈ h₉ h₁₀, resetWireless h = .ok () h₁ ∧
      S.resetNetwork h₁ = .ok () h₂ ∧ S.writeHostname p h₂ = .ok () h₃ ∧
      S.setTimezone p h₃ = .ok () h₄ ∧ S.baseNetwork p h₄ = .ok () h₅ ∧
      wirelessMesh p h₅ = .ok () h₆ ∧ perRadioAPSta p h₆ = .ok () h₇ ∧
      S.scenarioTopology p h₇ = .ok () h₈ ∧ S.batmanAdv p h₈ = .ok () h₉ ∧
      mesh11sd p h₉ = .ok () h₁₀ ∧ commit h₁₀ = .ok () h' := by
  obtain ⟨_, h₁, hreset, hrun₁⟩ := bind_eq_ok.1 hrun
  obtain ⟨_, h₂, hnet, hrun₂⟩ := bind_eq_ok.1 hrun₁
  obtain ⟨_, h₃, hhost, hrun₃⟩ := bind_eq_ok.1 hrun₂
  obtain ⟨_, h₄, htz, hrun₄⟩ := bind_eq_ok.1 hrun₃
  obtain ⟨_, h₅, hbase, hrun₅⟩ := bind_eq_ok.1 hrun₄
  obtain ⟨_, h₆, hmesh, hrun₆⟩ := bind_eq_ok.1 hrun₅
  obtain ⟨_, h₇, hradio, hrun₇⟩ := bind_eq_ok.1 hrun₆
  obtain ⟨_, h₈, hscen, hrun₈⟩ := bind_eq_ok.1 hrun₇
  obtain ⟨_, h₉, hbat, hrun₉⟩ := bind_eq_ok.1 hrun₈
  obtain ⟨_, h₁₀, hsd, hrun₁₀⟩ := bind_eq_ok.1 hrun₉
  obtain ⟨_, h₁₁, hcommit, hend⟩ := bind_eq_ok.1 hrun₁₀
  obtain ⟨-, rfl⟩ := EStateM.Result.ok.inj hend
  exact ⟨h₁, h₂, h₃, h₄, h₅, h₆, h₇, h₈, h₉, h₁₀, hreset, hnet, hhost, htz, hbase, hmesh, hradio,
    hscen, hbat, hsd, hcommit⟩

/-- **Phases that all end well have run their bodies in order.** -/
theorem bodies_of_runs {l : List (Phase × String × Prog Unit)} {d d' : Device}
    (h : l.forM W.runNamed d = .ok () d') : bodies l d.host = .ok () d'.host := by
  induction l generalizing d with
  | nil =>
      obtain ⟨-, rfl⟩ := EStateM.Result.ok.inj h
      rfl
  | cons ph l ih =>
      obtain ⟨_, t, hfirst, hrest⟩ := bind_eq_ok.1 (show (W.runNamed ph >>= fun _ =>
        l.forM W.runNamed) d = .ok () d' from h)
      exact (bind_of_ok (runNamed_eq_ok hfirst)).trans (ih hrest)

theorem orTerminal_eq_ok {snapshot : Option Snapshot} {m : EStateM (Phase × Err) Device α}
    {d d' : Device} {a : α} (h : W.orTerminal p snapshot m d = .ok a d') : m d = .ok a d' := by
  cases hm : m d with
  | ok b t =>
      rw [orTerminal_of_ok hm] at h
      obtain ⟨rfl, rfl⟩ := EStateM.Result.ok.inj h
      rfl
  | error f t =>
      obtain ⟨fault, t', hrun, -⟩ := orTerminal_of_error (W := W) (p := p) snapshot hm
      rw [hrun] at h
      cases h

theorem runPassword_host {d : Device} : (final (S.runPassword W p) d).host = d.host := by
  have hbody : Within (OnHost ⟨fun h h' => h' = h, fun _ => rfl, fun h h' => h'.trans h⟩)
      (S.setPassword W p) := by
    refine within_ite (within_throw _) fun d => ?_
    unfold final
    dsimp only
    split_ifs <;> rfl
  exact onHost_runPhase hbody d

/-! ## Before the first edit -/

/-- The bound of programs that leave the tree alone. -/
def Reads : Bound Host where
  rel h h' := h'.tree = h.tree
  refl _ := rfl
  trans h h' := h'.trans h

theorem reads_getSections {config type : String} : Within Reads (getSections config type) := by
  refine within_call (fun _ _ => rfl) fun h tick a t hok => ?_
  obtain ⟨c, -, -, rfl⟩ := getSections_ok hok
  rfl

theorem reads_hasUsableHalowRadio : Within Reads hasUsableHalowRadio := by
  refine within_bind (within_attempt reads_getSections) fun r => ?_
  split
  · exact within_bind within_tree fun _ => within_pure _
  · exact within_pure _

theorem reads_collectSetupRadios : Within Reads S.collectSetupRadios := by
  refine within_bind (within_attempt reads_getSections) fun r => ?_
  split
  · exact within_pure _
  · exact within_bind within_tree fun _ => within_pure _

theorem reads_check {e : Except String Unit} : Within Reads (check e) := by
  unfold check
  split
  · exact within_pure _
  · exact within_fail

theorem reads_validate : Within Reads (S.validate p) := by
  refine within_bind within_tree fun t => within_bind reads_check fun _ => ?_
  unfold Service.validateMeshBackhaul
  split
  · exact within_fail
  · exact within_pure _
  · exact within_bind (within_bind reads_collectSetupRadios fun _ => within_pure _) fun _ =>
      within_ite reads_check within_fail

theorem reads_checkReapplyGuard : Within (OnHost Reads) checkReapplyGuard := by
  intro d
  unfold final checkReapplyGuard
  split_ifs
  · rfl
  · rfl
  · rfl
  · exact within_bind (within_caught (within_onTree reads_hasUsableHalowRadio) fun _ =>
      within_pure _) (fun _ => within_ite (within_pure _) (within_throw _)) d

theorem reads_runValidate : Within (OnHost Reads) (S.runValidate W p) :=
  within_bind onHost_emit fun _ =>
    within_bind (within_caught (within_onTree reads_validate) fun _ =>
      within_bind (within_ignored onHost_emit) fun _ => within_throw _) fun _ => onHost_emit

theorem reads_runSnapshot : Within (OnHost Reads) (S.runSnapshot W) := by
  refine within_bind onHost_emit fun _ => within_ite ?_ ?_
  · exact within_bind onHost_emit fun _ => within_pure _
  · refine within_bind (within_onTree within_tree) fun t => ?_
    split
    · exact within_bind (within_ignored onHost_emit) fun _ => within_throw _
    · exact within_bind onHost_emit fun _ => within_pure _

/-- The snapshot of a tree. -/
def snapshotOf (S : Service) (t : Tree) : Option Snapshot :=
  if S.snapshotter then some (wizardConfigs.map fun c => (c, t.disk c)) else none

theorem capture_eq_ok {disk : String → Option Config} {l : List String} {snapshot : Snapshot}
    (h : l.mapM (fun name =>
      if (disk name).isSome && !W.readsFile name then
        (.error ⟨"reading /etc/config/" ++ name ++ ": input/output error", false⟩ : Except Err _)
      else .ok (name, disk name)) = .ok snapshot) :
    snapshot = l.map fun c => (c, disk c) := by
  induction l generalizing snapshot with
  | nil =>
      obtain rfl := Except.ok.inj h
      rfl
  | cons c l ih =>
      rw [List.mapM_cons] at h
      split at h
      · cases h
      · cases hrest : l.mapM (fun name =>
            if (disk name).isSome && !W.readsFile name then
              (.error ⟨"reading /etc/config/" ++ name ++ ": input/output error", false⟩ :
                Except Err _)
            else .ok (name, disk name)) with
        | error e =>
            rw [hrest] at h
            cases h
        | ok rest =>
            rw [hrest] at h
            obtain rfl := Except.ok.inj h
            rw [ih hrest]
            rfl

theorem runSnapshot_eq_ok {d d' : Device} {snapshot : Option Snapshot}
    (h : S.runSnapshot W d = .ok snapshot d') : snapshot = snapshotOf S d.host.tree := by
  obtain ⟨_, t, hstart, hrest⟩ := bind_eq_ok.1 h
  have hhost : t.host = d.host := host_of_quiet (sends_emit.ok hstart)
  unfold snapshotOf
  cases hsnap : S.snapshotter with
  | false =>
      rw [if_pos (by simp [hsnap])] at hrest
      obtain ⟨_, u, -, hpure⟩ := bind_eq_ok.1 hrest
      obtain ⟨rfl, -⟩ := EStateM.Result.ok.inj hpure
      rfl
  | true =>
      rw [if_neg (by simp [hsnap])] at hrest
      obtain ⟨t', u, hread, hcap⟩ := bind_eq_ok.1 hrest
      obtain rfl : t' = d.host.tree := by
        have hok := onTree_eq_ok hread
        rw [hhost] at hok
        exact ((EStateM.Result.ok.inj hok).1).symm
      cases hc : W.capture d.host.tree.disk with
      | error e =>
          rw [hc] at hcap
          obtain ⟨_, v, -, hthrow⟩ := bind_eq_ok.1 hcap
          cases hthrow
      | ok files =>
          rw [hc] at hcap
          obtain ⟨_, v, -, hpure⟩ := bind_eq_ok.1 hcap
          obtain ⟨rfl, -⟩ := EStateM.Result.ok.inj hpure
          rw [capture_eq_ok hc]
          rfl

/-! ## How a run ends -/

/-- The phases that are undone when they fail. -/
def Phase.undoable : Phase → Bool
  | .validate | .snapshot | .reloadServices | .persistFlags | .terminal => false
  | _ => true

/-- **A run that reaches the reload** has passed the checks and run the
bodies of the phases, on the tree it found. -/
theorem runHead_eq_ok {d d' : Device} (h : S.runHead W p d = .ok () d') :
    (∃ g g', g.tree = d.host.tree ∧ S.validate p g = .ok () g') ∧
      ∃ g, g.tree = d.host.tree ∧ bodies (S.mutationPhases p) g = .ok () d'.host := by
  obtain ⟨_, d₁, hguard, h⟩ := bind_eq_ok.1 h
  obtain ⟨_, d₂, hvalid, h⟩ := bind_eq_ok.1 h
  obtain ⟨snapshot, d₃, hsnap, h⟩ := bind_eq_ok.1 h
  obtain ⟨_, d₄, hmut, hpass⟩ := bind_eq_ok.1 h
  have h₁ : d₁.host.tree = d.host.tree := reads_checkReapplyGuard.ok hguard
  have h₂ : d₂.host.tree = d₁.host.tree :=
    reads_runValidate.ok (inPhase_eq_ok (orTerminal_eq_ok hvalid))
  have h₃ : d₃.host.tree = d₂.host.tree :=
    reads_runSnapshot.ok (inPhase_eq_ok (orTerminal_eq_ok hsnap))
  have h₅ : d'.host = d₄.host := by
    have hhost := runPassword_host (S := S) (W := W) (p := p) (d := d₄)
    rwa [final_of_ok (inPhase_eq_ok (orTerminal_eq_ok hpass))] at hhost
  constructor
  · obtain ⟨_, e, hstart, hrest⟩ := bind_eq_ok.1 (inPhase_eq_ok (orTerminal_eq_ok hvalid))
    obtain ⟨_, f, hbody, -⟩ := bind_eq_ok.1 hrest
    have hhost : e.host = d₁.host := host_of_quiet (sends_emit.ok hstart)
    cases hrun : onTree (S.validate p) e with
    | ok _ g =>
        refine ⟨e.host, g.host, by rw [hhost, h₁], ?_⟩
        exact onTree_eq_ok hrun
    | error err g =>
        rw [caught_of_error hrun] at hbody
        obtain ⟨_, _, -, hthrow⟩ := bind_eq_ok.1 hbody
        cases hthrow
  · refine ⟨d₃.host, by rw [h₃, h₂, h₁], ?_⟩
    rw [h₅]
    exact bodies_of_runs (orTerminal_eq_ok hmut)

theorem inPhase_eq_error {ph : Phase} {m : App α} {d d' : Device} {f : Phase × Err}
    (h : inPhase ph m d = .error f d') : f.1 = ph ∧ m d = .error f.2 d' := by
  cases hm : m d with
  | ok b t =>
      rw [inPhase, caught_of_ok hm] at h
      cases h
  | error e t =>
      rw [inPhase, caught_of_error hm] at h
      obtain ⟨rfl, rfl⟩ := EStateM.Result.error.inj h
      exact ⟨rfl, rfl⟩

/-- A step that ends the run has failed, and was undone. -/
theorem orTerminal_eq_error {snapshot : Option Snapshot} {m : EStateM (Phase × Err) Device α}
    {d d' : Device} {fault : Fault} (h : W.orTerminal p snapshot m d = .error fault d') :
    ∃ f t, m d = .error f t ∧ fault.phase = some f.1 ∧
      d'.quiet = (W.rollback snapshot t).quiet := by
  cases hm : m d with
  | ok b t =>
      rw [orTerminal_of_ok hm] at h
      cases h
  | error f t =>
      obtain ⟨fault', t', hrun, hphase, hquiet⟩ :=
        orTerminal_of_error (W := W) (p := p) snapshot hm
      rw [hrun] at h
      obtain ⟨rfl, rfl⟩ := EStateM.Result.error.inj h
      exact ⟨f, t, rfl, hphase, hquiet⟩

theorem phase_of_guard {d d' : Device} {f : Fault} (h : checkReapplyGuard d = .error f d') :
    f.phase = none := by
  unfold checkReapplyGuard at h
  split_ifs at h
  · obtain ⟨rfl, -⟩ := EStateM.Result.error.inj h
    rfl
  · obtain ⟨rfl, -⟩ := EStateM.Result.error.inj h
    rfl
  · obtain ⟨rfl, -⟩ := EStateM.Result.error.inj h
    rfl
  · rcases bind_eq_error.1 h with h | ⟨found, t, -, h⟩
    · unfold caught at h
      split at h <;> cases h
    · split at h
      · cases h
      · obtain ⟨rfl, -⟩ := EStateM.Result.error.inj h
        rfl

/-- **A run that fails before the reload** has left the tree alone, or has
been undone from the snapshot of the tree it found. -/
theorem runHead_eq_error {d d' : Device} {f : Fault} (h : S.runHead W p d = .error f d') :
    (d'.host.tree = d.host.tree ∧ ∀ ph, f.phase = some ph → ph.undoable = false) ∨
      ∃ e t, e.host.tree = d.host.tree ∧ t.host = (final (S.runMutationPhases W p) e).host ∧
        d'.host = (W.rollback (snapshotOf S d.host.tree) t).host := by
  rcases bind_eq_error.1 h with h | ⟨_, d₁, hguard, h⟩
  · refine .inl ⟨reads_checkReapplyGuard.error h, fun ph hph => ?_⟩
    rw [phase_of_guard h] at hph
    cases hph
  have h₁ : d₁.host.tree = d.host.tree := reads_checkReapplyGuard.ok hguard
  rcases bind_eq_error.1 h with h | ⟨_, d₂, hvalid, h⟩
  · obtain ⟨g, t, hrun, hphase, hquiet⟩ := orTerminal_eq_error h
    obtain ⟨hg, hrun⟩ := inPhase_eq_error hrun
    refine .inl ⟨?_, fun ph hph => ?_⟩
    · rw [host_of_quiet hquiet]
      exact (reads_runValidate.error hrun).trans h₁
    · rw [hphase, hg] at hph
      obtain rfl := Option.some.inj hph
      rfl
  have h₂ : d₂.host.tree = d.host.tree :=
    Eq.trans (reads_runValidate.ok (inPhase_eq_ok (orTerminal_eq_ok hvalid))) h₁
  rcases bind_eq_error.1 h with h | ⟨snapshot, d₃, hsnap, h⟩
  · obtain ⟨g, t, hrun, hphase, hquiet⟩ := orTerminal_eq_error h
    obtain ⟨hg, hrun⟩ := inPhase_eq_error hrun
    refine .inl ⟨?_, fun ph hph => ?_⟩
    · rw [host_of_quiet hquiet]
      exact (reads_runSnapshot.error hrun).trans h₂
    · rw [hphase, hg] at hph
      obtain rfl := Option.some.inj hph
      rfl
  have hsnap' := inPhase_eq_ok (orTerminal_eq_ok hsnap)
  have h₃ : d₃.host.tree = d.host.tree := Eq.trans (reads_runSnapshot.ok hsnap') h₂
  obtain rfl : snapshot = snapshotOf S d.host.tree := by rw [← h₂, runSnapshot_eq_ok hsnap']
  rcases bind_eq_error.1 h with h | ⟨_, d₄, hmut, h⟩
  · obtain ⟨g, t, hrun, -, hquiet⟩ := orTerminal_eq_error h
    exact .inr ⟨d₃, t, h₃, by rw [final_of_error hrun], host_of_quiet hquiet⟩
  · obtain ⟨g, t, hrun, -, hquiet⟩ := orTerminal_eq_error h
    have hhost := runPassword_host (S := S) (W := W) (p := p) (d := d₄)
    rw [final_of_error (inPhase_eq_error hrun).2] at hhost
    exact .inr ⟨d₃, t, h₃, by rw [hhost, final_of_ok (orTerminal_eq_ok hmut)],
      host_of_quiet hquiet⟩

/-- The last two phases leave the tree as it is. -/
theorem runTail_host (d : Device) : (final (S.runTail W p) d).host = d.host := by
  have hquiet := congrArg Device.host (runTail_quiet (S := S) (W := W) (p := p) d)
  split_ifs at hquiet
  · exact hquiet
  · exact hquiet

theorem phase_of_runTail {d d' : Device} {f : Fault} (h : S.runTail W p d = .error f d') :
    ∀ ph, f.phase = some ph → ph.undoable = false := by
  intro ph hph
  rcases bind_eq_error.1 h with h | ⟨_, t, -, h⟩
  · obtain ⟨g, t, hrun, hphase, -⟩ := orTerminal_eq_error h
    rw [hphase, (inPhase_eq_error hrun).1] at hph
    obtain rfl := Option.some.inj hph
    rfl
  rcases bind_eq_error.1 h with h | ⟨_, u, -, h⟩
  · obtain ⟨g, t, hrun, hphase, -⟩ := orTerminal_eq_error h
    rw [hphase, (inPhase_eq_error hrun).1] at hph
    obtain rfl := Option.some.inj hph
    rfl
  · unfold caught at h
    split at h <;> cases h

end Setup

end OpenManet
