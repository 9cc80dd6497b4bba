import OpenManet.Auth.Password
import OpenManet.Setup.Acceptance
import OpenManet.Setup.Relayed
import OpenManet.Setup.Retry
/-!
# Whether an accepted profile can be applied

The first phase checks the profile in one place, and the later phases read it
in others. Where no command fails on its own account, a run of an accepted
profile completes exactly where what the later phases look for is there:
some of it the checks leave open, and the device has still been torn down by
the time it is missed.
-/

namespace OpenManet

namespace Setup

open Uci Fallible Network Auth

variable {S : Service} {W : World} {p : MeshNodeProfile} {d : Device} {h : Host} {t : Tree}

/-! ## What the later phases look for -/

/-- The profile is of one of the scenarios. -/
def Placed (p : MeshNodeProfile) : Prop :=
  p.role = .meshGate ∧
      (p.meshgateMode = .router ∧ (p.uplinkType = .ethernet ∨ p.uplinkType = .wirelessSta) ∨
        p.meshgateMode = .routerFirewall ∧ p.uplinkType = .ethernet) ∨
    p.role = .meshPoint ∧ p.meshpointMode = .extender

/-- The zones fit the profile: the mesh's own and the one that leads
upstream. A gate behind a firewall also needs a zone `lan`, which it does not
make. -/
def ZonesFit (p : MeshNodeProfile) (t : Tree) : Prop :=
  ZoneFits t "ahwlan" ∧
    if p.meshgateMode = .routerFirewall then ZoneFits t "wan" ∧ zoneNamed t "lan" = true
    else ZoneFits t "lan"

/-- **All that the later phases look for is there**, in the profile, in what
the service is wired with and in the configs. -/
structure Feasible (S : Service) (p : MeshNodeProfile) (t : Tree) : Prop where
  placed : Placed p
  password : breaksLine p.adminPassword = false
  setter : S.passwordSetter = true
  zone : ZoneKnown S p
  address : AddressDrawn S p
  system : SystemListed t
  zones : ZonesFit p t

/-- The first phase has the profile in order. -/
structure Checked (p : MeshNodeProfile) (t : Tree) : Prop where
  named : p.hostname ≠ ""
  mesh : ∃ mesh, Validated t p mesh
  role : validateRole p = .ok ()

theorem checked_of_validate {g g' : Host} (hrun : S.validate p g = .ok () g') : Checked p g.tree := by
  obtain ⟨⟨mesh, hmesh⟩, -⟩ := validated_of_validate hrun
  have hsucceeds : succeeds (S.validate p) g = true := by
    unfold Fallible.succeeds
    rw [hrun]
  have hprofile := (validateProfile_eq_ok_iff hmesh.isMesh).1 (validate_succeeds_iff.1 hsucceeds).1
  refine ⟨?_, ⟨mesh, hmesh⟩, hprofile.2.2.1⟩
  intro hempty
  have hlabel := hprofile.1
  rw [hempty] at hlabel
  exact absurd hlabel (by decide)

/-- The scenario of a profile in order, and the zones it works on. -/
theorem scenario_of_placed (hplaced : Placed p) :
    ∃ scenario, classifyScenario p = .ok scenario ∧ scenario ≠ .meshPointNone ∧
      (scenario = .meshGateRouterFirewallEth ↔ p.meshgateMode = .routerFirewall) := by
  rcases hplaced with ⟨hgate, ⟨hmode, hup | hup⟩ | ⟨hmode, hup⟩⟩ | ⟨hpoint, hmode⟩
  · exact ⟨.meshGateRouterEth, by simp [classifyScenario, hgate, hmode, hup], by decide,
      by simp [hmode]⟩
  · exact ⟨.meshGateRouterWifiSta, by simp [classifyScenario, hgate, hmode, hup], by decide,
      by simp [hmode]⟩
  · exact ⟨.meshGateRouterFirewallEth, by simp [classifyScenario, hgate, hmode, hup], by decide,
      by simp [hmode]⟩
  · refine ⟨.meshPointExtender, by simp [classifyScenario, hpoint, hmode], by decide, ?_⟩
    have hgate : p.meshgateMode = .unspecified := by
      unfold MeshNodeProfile.meshpointMode at hmode
      unfold MeshNodeProfile.meshgateMode
      cases hdevice : p.deviceMode with
      | unset => rfl
      | meshpoint m => rfl
      | meshgate m =>
          rw [hdevice] at hmode
          cases hmode
    simp [hgate]

theorem placed_of_scenario {scenario : ScenarioKind} (hrole : validateRole p = .ok ())
    (hscenario : classifyScenario p = .ok scenario) : Placed p := by
  unfold classifyScenario at hscenario
  unfold Placed
  split at hscenario
  · next h₁ h₂ h₃ => exact .inl ⟨h₁, .inl ⟨h₂, .inl h₃⟩⟩
  · next h₁ h₂ h₃ => exact .inl ⟨h₁, .inr ⟨h₂, h₃⟩⟩
  · next h₁ h₂ h₃ => exact .inl ⟨h₁, .inl ⟨h₂, .inr h₃⟩⟩
  · next h₁ h₂ => exact .inr ⟨h₁, h₂⟩
  · next h₁ h₂ =>
    unfold validateRole at hrole
    rw [h₁] at hrole
    simp [h₂] at hrole
  · cases hscenario

theorem role_of_placed (hplaced : Placed p) : p.role = .meshPoint ∨ p.role = .meshGate :=
  hplaced.elim (fun hgate => .inr hgate.1) fun hpoint => .inl hpoint.1

/-! ## The phases up to the scenario -/

/-- The phases before the scenario's, and those from it on. -/
def opening (S : Service) (p : MeshNodeProfile) : List (Phase × String × Prog Unit) :=
  (S.mutationPhases p).take 7

def closing (S : Service) (p : MeshNodeProfile) : List (Phase × String × Prog Unit) :=
  (S.mutationPhases p).drop 7

theorem bodies_split : bodies (S.mutationPhases p) = (bodies (opening S p) >>= fun _ =>
    bodies (closing S p)) := by
  have happend : bodies (opening S p ++ closing S p) = (bodies (opening S p) >>= fun _ =>
      bodies (closing S p)) := List.forM_append
  rwa [opening, closing, List.take_append_drop] at happend

/-- The firewall after the reset. -/
theorem leaves_resetFirewall (h : Host) :
    Leaves resetFirewall h fun _ h' => ∀ n, Plain n → n ≠ "" →
      (ZoneReady h'.tree n ↔ ZoneFits h.tree n) ∧ zoneNamed h'.tree n = zoneNamed h.tree n := by
  unfold resetFirewall
  rw [leaves_bind]
  refine (leaves_removeAllRules h).mono ?_
  rintro _ h₁ ⟨hzones, hkind⟩
  have hlook : ∀ n, Within (Looks (zoneView n)) (do
      whitelistAndDisableForwardings
      unsetMtuFixAndMasq) := by
    intro n
    have hon : Within (Looks (zoneView n)) whitelistAndDisableForwardings :=
      within_bind (within_saying looks_getSections) fun _ => within_forM fun _ =>
        within_saying (looks_zoneView_edit (leaving_zone (by decide) (by decide)))
    refine within_bind hon fun _ => within_bind (within_saying looks_getSections) fun _ =>
      within_forM fun _ => within_bind (within_saying (looks_zoneView_edit ?_)) fun _ =>
        within_saying (looks_zoneView_edit ?_)
    · exact leaving_erase (by decide)
    · exact leaving_erase (by decide)
  intro _ h₂ hrun n hn hne
  have hview : zoneView n h₂.tree = zoneView n h₁.tree := (hlook n).ok hrun
  refine ⟨(zoneReady_congr hview).trans (zoneReady_iff_of_rules hzones (hkind n hn hne)), ?_⟩
  rw [zoneNamed_of_view hview, zoneNamed, zoneNamed, hzones]

/-- The zones as the scenario finds them. -/
def ZonesKept (t t' : Tree) : Prop :=
  ∀ n, Plain n → n ≠ "" →
    (ZoneReady t' n ↔ ZoneFits t n) ∧ zoneNamed t' n = zoneNamed t n

theorem zoneView_of_mem {t t' : Tree} (hmem : t'.mem "firewall" = t.mem "firewall") (n : String) :
    zoneView n t' = zoneView n t := by
  have hzones : zones t' = zones t := by rw [zones, zones, hmem]
  rw [zoneView, zoneView, zoneNamed, zoneNamed, servingZone, servingZone, hzones, kind_congr hmem]

/-- The system sections are listed as they were. -/
theorem looks_system {ws : List (String × String)} {ref : String} {what : String → String} :
    Within (Looks fun t => (t.mem "system").map fun c => c.refs "system")
      (setOptions "system" ref what ws) := by
  refine within_forM fun w => within_saying (looks_editSection fun t c hmem _ => ?_)
  rw [Tree.stage_mem, hmem, Option.map_some, Option.map_some, Config.refs_update]

theorem system_of_writeHostname {h' : Host} (hrun : S.writeHostname p h = .ok () h')
    (hsystem : SystemListed h.tree) : SystemListed h'.tree := by
  have hlook : Within (Looks fun t => (t.mem "system").map fun c => c.refs "system")
      (S.writeHostname p) := by
    unfold Service.writeHostname stageSystemHostname firstSystemSection
    refine within_ite (within_ite within_fail (within_bind (within_bind
      (within_saying looks_getSections) fun l => ?_) fun _ => looks_system))
      (within_bind (within_saying looks_getSections) fun l => ?_)
    · cases l with
      | nil => exact within_fail
      | cons s l => exact within_pure _
    · cases l with
      | nil => exact within_fail
      | cons s l =>
          refine looks_editSection fun t c hmem _ => ?_
          rw [Tree.stage_mem, hmem, Option.map_some, Option.map_some, Config.refs_update]
  have hsame : (h'.tree.mem "system").map (fun c => c.refs "system")
      = (h.tree.mem "system").map fun c => c.refs "system" := hlook.ok hrun
  obtain ⟨c, hmem, hlisted⟩ := hsystem
  rw [hmem, Option.map_some, Option.map_eq_some_iff] at hsame
  obtain ⟨c', hmem', hrefs⟩ := hsame
  exact ⟨c', hmem', by rw [hrefs]; exact hlisted⟩

/-- **What the first phases leave and have found.** -/
theorem leaves_opening (h : Host) :
    Leaves (bodies (opening S p)) h fun _ h' => ZonesKept h.tree h'.tree ∧
      (∃ x ∈ bridges h'.tree, x.isCalled "br-ahwlan" = true) ∧ SystemListed h.tree ∧
      ZoneKnown S p ∧ AddressDrawn S p ∧ ∃ scenario, classifyScenario p = .ok scenario := by
  intro _ a₇ hrun
  obtain ⟨_, a₁, hreset, hrun₁⟩ := bind_eq_ok.1 hrun
  obtain ⟨_, a₂, hnet, hrun₂⟩ := bind_eq_ok.1 hrun₁
  obtain ⟨_, a₃, hhost, hrun₃⟩ := bind_eq_ok.1 hrun₂
  obtain ⟨_, a₄, htz, hrun₄⟩ := bind_eq_ok.1 hrun₃
  obtain ⟨_, a₅, hbase, hrun₅⟩ := bind_eq_ok.1 hrun₄
  obtain ⟨_, a₆, hmesh, hrun₆⟩ := bind_eq_ok.1 hrun₅
  obtain ⟨_, a₇', hradio, hend⟩ := bind_eq_ok.1 hrun₆
  obtain ⟨-, rfl⟩ := EStateM.Result.ok.inj hend
  obtain ⟨_, b₁, hfw, hnet₁⟩ := bind_eq_ok.1 hnet
  obtain ⟨_, b₂, hdh, hifs⟩ := bind_eq_ok.1 hnet₁
  -- the bridges the reset has passed over have no names, so the new one is found by its own
  have hbr₂ : ∀ x ∈ bridges a₂.tree, x.sectionName = "" := by
    rw [(leaves_resetInterfaces b₂ _ _ hifs).1]
    exact fun x hx => section_of_swept_bridge hx
  have hw₄ : Wired.rel a₂ a₄ := Wired.trans ((wired_of_edits edits_writeHostname (by decide)).ok hhost)
    ((wired_of_edits edits_setTimezone (by decide)).ok htz)
  obtain ⟨scenario, hscenario, hbuilt, -⟩ := leaves_baseNetwork
    (by rw [hw₄.1]; exact hbr₂) _ _ hbase
  have hw₇ : Wired.rel a₅ a₇' := Wired.trans ((wired_of_edits edits_wirelessMesh (by decide)).ok hmesh)
    ((wired_of_edits edits_perRadioAPSta (by decide)).ok hradio)
  have hsystem : a₂.tree.mem "system" = h.tree.mem "system" :=
    calc a₂.tree.mem "system"
      _ = b₂.tree.mem "system" := mem_of_edits edits_resetInterfaces (by decide) hifs
      _ = b₁.tree.mem "system" := mem_of_edits edits_resetDhcp (by decide) hdh
      _ = a₁.tree.mem "system" := mem_of_edits edits_resetFirewall (by decide) hfw
      _ = h.tree.mem "system" := mem_of_edits edits_resetWireless (by decide) hreset
  have hfirewall : a₇'.tree.mem "firewall" = b₁.tree.mem "firewall" :=
    calc a₇'.tree.mem "firewall"
      _ = a₆.tree.mem "firewall" := mem_of_edits edits_perRadioAPSta (by decide) hradio
      _ = a₅.tree.mem "firewall" := mem_of_edits edits_wirelessMesh (by decide) hmesh
      _ = a₄.tree.mem "firewall" := mem_of_edits edits_baseNetwork (by decide) hbase
      _ = a₃.tree.mem "firewall" := mem_of_edits edits_setTimezone (by decide) htz
      _ = a₂.tree.mem "firewall" := mem_of_edits edits_writeHostname (by decide) hhost
      _ = b₂.tree.mem "firewall" := mem_of_edits edits_resetInterfaces (by decide) hifs
      _ = b₁.tree.mem "firewall" := mem_of_edits edits_resetDhcp (by decide) hdh
  have hstart : a₁.tree.mem "firewall" = h.tree.mem "firewall" :=
    mem_of_edits edits_resetWireless (by decide) hreset
  refine ⟨fun n hn hne => ?_, ?_, ?_, leaves_setTimezone _ _ _ htz, drawn_of_baseNetwork _ _ _ hbase,
    scenario, hscenario⟩
  · obtain ⟨hready, hnamed⟩ := leaves_resetFirewall a₁ _ _ hfw n hn hne
    have hbegin := zoneView_of_mem hstart n
    have hview := zoneView_of_mem hfirewall n
    simp only [zoneView, Prod.mk.injEq] at hbegin
    refine ⟨(zoneReady_congr hview).trans (hready.trans ?_), ?_⟩
    · rw [ZoneFits, ZoneFits, hbegin.1, hbegin.2.1, hbegin.2.2]
    · rw [zoneNamed_of_view hview, hnamed, hbegin.1]
  · obtain ⟨pre, x, post, hnew, -, -, -, hname, -⟩ := hbuilt
    refine ⟨x, ?_, by simp [Bridge.isCalled, hname]⟩
    rw [hw₇.1, hnew]
    simp
  · exact (systemListed_congr hsystem).1 (leaves_writeHostname _ _ _ hhost)

theorem relays_opening {scenario : ScenarioKind} (hchecked : Checked p t) (hsystem : SystemListed h.tree)
    (hzone : ZoneKnown S p) (hdrawn : AddressDrawn S p)
    (hscenario : classifyScenario p = .ok scenario) : Relays (bodies (opening S p)) h := by
  obtain ⟨mesh, hmesh⟩ := hchecked.mesh
  refine relays_bind_of relays_resetWireless fun _ a₁ hreset => ?_
  refine relays_bind_of relays_resetNetwork fun _ a₂ hnet => ?_
  have hsystem₂ : SystemListed a₂.tree := by
    rw [systemListed_congr (mem_of_edits edits_resetNetwork (by decide) hnet),
      systemListed_congr (mem_of_edits edits_resetWireless (by decide) hreset)]
    exact hsystem
  refine relays_bind_of (relays_writeHostname hchecked.named hsystem₂) fun _ a₃ hhost => ?_
  refine relays_bind (relays_setTimezone hzone (system_of_writeHostname hhost hsystem₂)) fun _ _ => ?_
  exact relays_bind (relays_baseNetwork hscenario hdrawn) fun _ _ =>
    relays_bind (relays_wirelessMesh hmesh.isMesh hmesh.meshNamed) fun _ _ =>
      relays_bind relays_perRadioAPSta fun _ _ => relays_pure _

theorem relays_closing {scenario : ScenarioKind} {x : Bridge} (hplaced : Placed p)
    (hscenario : classifyScenario p = .ok scenario) (hnone : scenario ≠ .meshPointNone)
    (hready : ZonesReady h.tree scenario) (hx : x ∈ bridges h.tree)
    (hcalled : x.isCalled "br-ahwlan" = true) : Relays (bodies (closing S p)) h := by
  refine relays_bind_of (relays_scenarioTopology hscenario hnone hready) fun _ h₁ hrun => ?_
  have hw : Wired.rel h h₁ := wired_scenarioTopology.ok hrun
  refine relays_bind (relays_batmanAdv (by rw [hw.1]; exact hx) hcalled) fun _ _ => ?_
  exact relays_bind (relays_mesh11sd (role_of_placed hplaced)) fun _ _ =>
    relays_bind relays_commit fun _ _ => relays_pure _

theorem ready_of_closing (hnone : classifyScenario p ≠ .ok .meshPointNone) (h : Host) :
    Leaves (bodies (closing S p)) h fun _ _ =>
      ∃ scenario, classifyScenario p = .ok scenario ∧ ZonesReady h.tree scenario := by
  show Leaves (S.scenarioTopology p >>= fun _ => bodies ((closing S p).drop 1)) h _
  rw [leaves_bind]
  exact (ready_of_scenarioTopology hnone h).mono fun _ _ hready _ _ _ => hready

theorem zonesReady_iff {t' : Tree} {scenario : ScenarioKind} (hkept : ZonesKept t t')
    (hfirewall : scenario = .meshGateRouterFirewallEth ↔ p.meshgateMode = .routerFirewall) :
    ZonesReady t' scenario ↔ ZonesFit p t := by
  have hahwlan := (hkept "ahwlan" (by decide) (by decide)).1
  have hlan := hkept "lan" (by decide) (by decide)
  have hwan := (hkept "wan" (by decide) (by decide)).1
  unfold ZonesFit
  by_cases hmode : p.meshgateMode = .routerFirewall
  · rw [hfirewall.2 hmode, if_pos hmode, ZonesReady, hahwlan, hwan, hlan.2]
  · have hother : ZonesReady t' scenario ↔ ZoneReady t' "ahwlan" ∧ ZoneReady t' "lan" := by
      cases scenario with
      | meshGateRouterFirewallEth => exact absurd (hfirewall.1 rfl) hmode
      | meshGateRouterEth => exact Iff.rfl
      | meshGateRouterWifiSta => exact Iff.rfl
      | meshPointExtender => exact Iff.rfl
      | meshPointNone => exact Iff.rfl
    rw [hother, if_neg hmode, hahwlan, hlan.1]

/-! ## The edits -/

/-- **The edits fail only where a call does**, when what they look for is
there. -/
theorem relays_bodies (hchecked : Checked p t) (hf : Feasible S p h.tree) :
    Relays (bodies (S.mutationPhases p)) h := by
  obtain ⟨scenario, hscenario, hnone, hfirewall⟩ := scenario_of_placed hf.placed
  rw [bodies_split]
  refine relays_then (relays_opening hchecked hf.system hf.zone hf.address hscenario)
    (leaves_opening h) ?_
  rintro _ h' ⟨hkept, ⟨x, hx, hcalled⟩, -⟩
  exact relays_closing hf.placed hscenario hnone ((zonesReady_iff hkept hfirewall).2 hf.zones) hx hcalled

/-- **Edits that end well** have found what they looked for. -/
theorem found_of_bodies {h' : Host} (hchecked : Checked p t)
    (hrun : bodies (S.mutationPhases p) h = .ok () h') :
    Placed p ∧ ZoneKnown S p ∧ AddressDrawn S p ∧ SystemListed h.tree ∧ ZonesFit p h.tree := by
  rw [bodies_split] at hrun
  obtain ⟨_, h₁, hopen, hclose⟩ := bind_eq_ok.1 hrun
  obtain ⟨hkept, -, hsystem, hzone, hdrawn, scenario, hscenario⟩ := leaves_opening h _ _ hopen
  have hplaced := placed_of_scenario hchecked.role hscenario
  obtain ⟨scenario', hscenario', hnone, hfirewall⟩ := scenario_of_placed hplaced
  obtain ⟨scenario'', hscenario'', hready⟩ := ready_of_closing (S := S)
    (by rw [hscenario']; exact fun heq => hnone (Except.ok.inj heq)) h₁ _ _ hclose
  obtain rfl := Except.ok.inj (hscenario'.symm.trans hscenario'')
  exact ⟨hplaced, hzone, hdrawn, hsystem, (zonesReady_iff hkept hfirewall).1 hready⟩

/-! ## Runs -/

/-- The streams, files and services answer. -/
structure World.Obliging (W : World) : Prop where
  delivers : ∀ ph st, W.delivers ph st = true
  reads : ∀ name, W.readsFile name = true
  reloads : ∀ svc, W.reloads svc = true
  persists : W.persists = true

/-- The world in which the password goes through the setter. -/
def World.setting (W : World) (c : ChpasswdSetter) (X : Tools) (p : MeshNodeProfile) : World :=
  { W with setsPassword := (c.setPassword X "root" p.adminPassword).toBool }

/-- The run comes to the first phase, which accepts the profile. -/
def Service.Accepts (S : Service) (p : MeshNodeProfile) (d : Device) : Prop :=
  succeeds checkReapplyGuard d = true ∧
    succeeds (S.validate p) (final checkReapplyGuard d).host = true

/-- The run has failed where a call over the tree did. -/
def UciFailed (r : EStateM.Result Fault Device Unit) : Prop :=
  ∃ f d e, r = .error f d ∧ Raised e ∧ f.text = e.text

/-- A failed step tells the caller what struck it. -/
theorem text_of_orTerminal {α : Type} {snapshot : Option Snapshot}
    {m : EStateM (Phase × Err) Device α} {d d' : Device} {fault : Fault}
    (hrun : W.orTerminal p snapshot m d = .error fault d') :
    ∃ f t, m d = .error f t ∧ fault.text = f.2.text := by
  cases hm : m d with
  | ok a t =>
      rw [orTerminal_of_ok hm] at hrun
      cases hrun
  | error f t =>
      refine ⟨f, t, rfl, ?_⟩
      have hterminal : W.orTerminal p snapshot m d
          = W.emitTerminal p f.1 f.2 (W.rollback snapshot t) := caught_of_error hm
      rw [hterminal] at hrun
      rcases bind_eq_error.1 hrun with hno | ⟨_, u, -, hthrow⟩
      · unfold caught at hno
        split at hno <;> cases hno
      · obtain ⟨rfl, -⟩ := EStateM.Result.error.inj hthrow
        rfl

/-- Phases that fail in a world that listens have failed in a body. -/
theorem bodies_of_failed (hlistens : ∀ ph st, W.delivers ph st = true)
    {l : List (Phase × String × Prog Unit)} {d t : Device} {f : Phase × Err}
    (hrun : l.forM W.runNamed d = .error f t) : ∃ h', bodies l d.host = .error f.2 h' := by
  induction l generalizing d with
  | nil => cases hrun
  | cons ph l ih =>
      rcases bind_eq_error.1 (show (W.runNamed ph >>= fun _ => l.forM W.runNamed) d = .error f t
        from hrun) with hfirst | ⟨_, u, hfirst, hrest⟩
      · have hstart := hlistens ph.1 .started
        cases hbody : onTree ph.2.2 (d.told ph.1 .started ph.2.1) with
        | ok _ v =>
            have hok := runPhase_of_ok hstart hbody (hlistens ph.1 .done)
            rw [World.runNamed, caught_of_ok hok] at hfirst
            cases hfirst
        | error e v =>
            obtain ⟨v', herr, -⟩ := runPhase_of_error hstart hbody
            rw [World.runNamed, caught_of_error herr] at hfirst
            obtain ⟨rfl, -⟩ := EStateM.Result.error.inj hfirst
            unfold onTree zoom at hbody
            cases hrun' : ph.2.2 (d.told ph.1 .started ph.2.1).host with
            | ok a g => simp [hrun'] at hbody
            | error e' g =>
                rw [hrun'] at hbody
                obtain ⟨rfl, -⟩ := EStateM.Result.error.inj hbody
                exact ⟨g, bind_of_error hrun'⟩
      · obtain ⟨h', herr⟩ := ih hrest
        exact ⟨h', (bind_of_ok (runNamed_eq_ok hfirst)).trans herr⟩

section Head

variable (hW : W.Obliging)
include hW

theorem runValidate_completes (hvalid : succeeds (S.validate p) d.host = true) :
    ∃ d', S.runValidate W p d = .ok () d' := by
  have hbody : onTree (S.validate p) (d.told .validate .started "validating profile")
      = .ok () { d.told .validate .started "validating profile" with
          host := final (S.validate p) d.host } := by
    have hrun : S.validate p (d.told .validate .started "validating profile").host
        = .ok () (final (S.validate p) d.host) := ok_of_succeeds hvalid
    unfold onTree zoom
    rw [hrun]
  exact ⟨_, (bind_of_ok (emit_taken (hW.delivers _ _) d)).trans
    ((bind_of_ok (caught_of_ok hbody)).trans (emit_taken (hW.delivers _ _) _))⟩

theorem capture_completes (disk : String → Option Uci.Config) :
    W.capture disk = .ok (wizardConfigs.map fun name => (name, disk name)) := by
  unfold World.capture
  simp only [hW.reads, Bool.not_true, Bool.and_false, Bool.false_eq_true, if_false]
  rfl

theorem runSnapshot_completes (d : Device) : ∃ snapshot d', S.runSnapshot W d = .ok snapshot d' := by
  have hstart : W.emit .snapshot .started "capturing UCI snapshot for rollback" d
      = .ok () (d.told .snapshot .started "capturing UCI snapshot for rollback") :=
    emit_taken (hW.delivers _ _) d
  unfold Service.runSnapshot
  rw [bind_of_ok hstart]
  split
  · exact ⟨_, _, bind_of_ok (emit_taken (hW.delivers _ _) _)⟩
  · have hread : onTree tree (d.told .snapshot .started "capturing UCI snapshot for rollback")
        = (.ok d.host.tree (d.told .snapshot .started "capturing UCI snapshot for rollback") :
          EStateM.Result Err Device Tree) := rfl
    rw [bind_of_ok hread, capture_completes hW]
    exact ⟨_, _, bind_of_ok (emit_taken (hW.delivers _ _) _)⟩

/-- **A run of an accepted profile** in a world that answers fails in the
edits or at the password. -/
theorem failed_in_edits (haccepts : S.Accepts p d) {f : Fault} {d' : Device}
    (hrun : S.applySetup W (some p) d = .error f d') :
    (∃ h h' e, h.tree = d.host.tree ∧ bodies (S.mutationPhases p) h = .error e h' ∧
        f.text = e.text) ∨ S.passwordSetter = false ∨ W.setsPassword = false := by
  have htail : TailEnds S W := by
    refine ⟨⟨hW.delivers _ _, hW.delivers _ _, fun _ => ?_⟩, hW.delivers _ _, hW.persists,
      hW.delivers _ _⟩
    simp [reloadServices, World.reloadOneService, hW.reloads]
  rcases applySetup_eq_error hrun with hhead | ⟨t, -, htail'⟩
  swap
  · obtain ⟨t', hok, -⟩ := runTail_ok (p := p) htail t
    rw [hok] at htail'
    cases htail'
  have hguard := ok_of_succeeds haccepts.1
  rcases bind_eq_error.1 hhead with hno | ⟨_, d₁, hguard₁, hhead₁⟩
  · rw [hguard] at hno
    cases hno
  obtain ⟨-, rfl⟩ := EStateM.Result.ok.inj (hguard.symm.trans hguard₁)
  rcases bind_eq_error.1 hhead₁ with hno | ⟨_, d₂, hvalid, hhead₂⟩
  · obtain ⟨g, u, herr, -⟩ := orTerminal_eq_error hno
    obtain ⟨u', hok⟩ := runValidate_completes hW haccepts.2
    rw [(inPhase_eq_error herr).2] at hok
    cases hok
  rcases bind_eq_error.1 hhead₂ with hno | ⟨snapshot, d₃, hsnap, hhead₃⟩
  · obtain ⟨g, u, herr, -⟩ := orTerminal_eq_error hno
    obtain ⟨s, u', hok⟩ := runSnapshot_completes (S := S) hW d₂
    rw [(inPhase_eq_error herr).2] at hok
    cases hok
  have h₁ : (final checkReapplyGuard d).host.tree = d.host.tree := reads_checkReapplyGuard.ok hguard
  have h₂ : d₂.host.tree = (final checkReapplyGuard d).host.tree :=
    reads_runValidate.ok (inPhase_eq_ok (orTerminal_eq_ok hvalid))
  have h₃ : d₃.host.tree = d₂.host.tree :=
    reads_runSnapshot.ok (inPhase_eq_ok (orTerminal_eq_ok hsnap))
  rcases bind_eq_error.1 hhead₃ with hedits | ⟨_, d₄, -, hpass⟩
  · obtain ⟨g, u, herr, htext⟩ := text_of_orTerminal hedits
    obtain ⟨h', hbodies⟩ := bodies_of_failed hW.delivers herr
    exact .inl ⟨d₃.host, h', g.2, by rw [h₃, h₂, h₁], hbodies, htext⟩
  · right
    obtain ⟨g, u, herr, -⟩ := orTerminal_eq_error hpass
    have herr' := (inPhase_eq_error herr).2
    by_contra hno
    rw [not_or, Bool.not_eq_false, Bool.not_eq_false] at hno
    have hbody : S.setPassword W p (d₄.told .password .started "setting admin password")
        = .ok () { d₄.told .password .started "setting admin password" with
            password := some p.adminPassword } := by
      simp [Service.setPassword, hno.1, hno.2]
    have hok := runPhase_of_ok (hW.delivers .password .started) hbody (hW.delivers .password .done)
    rw [Service.runPassword, hok] at herr'
    cases herr'

end Head

theorem setPassword_eq_ok {d' : Device} (hrun : S.setPassword W p d = .ok () d') :
    S.passwordSetter = true ∧ W.setsPassword = true := by
  cases hsetter : S.passwordSetter with
  | false =>
      have hthrow : S.setPassword W p = throw ⟨"PasswordSetter not configured", false⟩ := by
        rw [Service.setPassword, hsetter]
        rfl
      rw [hthrow] at hrun
      cases hrun
  | true =>
      cases hsets : W.setsPassword with
      | false => simp [Service.setPassword, hsetter, hsets] at hrun
      | true => exact ⟨rfl, rfl⟩

/-- A run that completes has set the password. -/
theorem password_of_completed {d' : Device} (hrun : S.applySetup W (some p) d = .ok () d') :
    S.passwordSetter = true ∧ W.setsPassword = true := by
  obtain ⟨_, t, hhead, -⟩ := bind_eq_ok.1 hrun
  obtain ⟨_, d₁, -, hhead⟩ := bind_eq_ok.1 hhead
  obtain ⟨_, d₂, -, hhead⟩ := bind_eq_ok.1 hhead
  obtain ⟨snapshot, d₃, -, hhead⟩ := bind_eq_ok.1 hhead
  obtain ⟨_, d₄, -, hpass⟩ := bind_eq_ok.1 hhead
  obtain ⟨u, hbody, -⟩ := runPhase_eq_ok (inPhase_eq_ok (orTerminal_eq_ok hpass))
  exact setPassword_eq_ok hbody

theorem toBool_eq_true_iff {e : Except String Unit} : e.toBool = true ↔ e = .ok () := by
  cases e with
  | error text => exact iff_of_false (fun h => by cases h) (fun h => by cases h)
  | ok _ => exact iff_of_true rfl rfl

theorem breaksLine_root : breaksLine "root" = false := by decide

/-- **When the run of an accepted profile completes**, where no call over the
tree and no command fails: exactly when all that the later phases look for is
there. -/
theorem accepted_run_completes_iff {c : ChpasswdSetter} {X : Tools} (hworks : c.Works X)
    (hW : W.Obliging) (haccepts : S.Accepts p d)
    (hcalls : ¬ UciFailed (S.applySetup (W.setting c X p) (some p) d)) :
    succeeds (S.applySetup (W.setting c X p) (some p)) d = true ↔ Feasible S p d.host.tree := by
  have hW' : (W.setting c X p).Obliging := ⟨hW.delivers, hW.reads, hW.reloads, hW.persists⟩
  have hsets : (W.setting c X p).setsPassword = true ↔ breaksLine p.adminPassword = false := by
    show (c.setPassword X "root" p.adminPassword).toBool = true ↔ _
    rw [toBool_eq_true_iff, ChpasswdSetter.setPassword_eq_ok_iff hworks,
      validatePasswordInput_eq_ok_iff, and_iff_right (by decide), and_iff_right breaksLine_root]
  have hchecked := checked_of_validate (ok_of_succeeds haccepts.2)
  constructor
  · intro hsucceeds
    have hrun := ok_of_succeeds hsucceeds
    obtain ⟨hsetter, hpassword⟩ := password_of_completed hrun
    obtain ⟨_, t, hhead, -⟩ := bind_eq_ok.1 hrun
    obtain ⟨-, g, htree, hbodies⟩ := runHead_eq_ok hhead
    obtain ⟨hplaced, hzone, hdrawn, hsystem, hzones⟩ := found_of_bodies hchecked hbodies
    rw [htree] at hsystem hzones
    exact ⟨hplaced, hsets.1 hpassword, hsetter, hzone, hdrawn, hsystem, hzones⟩
  · intro hf
    cases hrun : S.applySetup (W.setting c X p) (some p) d with
    | ok _ t =>
        unfold Fallible.succeeds
        rw [hrun]
    | error f t =>
        rcases failed_in_edits hW' haccepts hrun with ⟨h, h', e, htree, herr, htext⟩ | hno | hno
        · refine absurd ⟨f, t, e, hrun, relays_bodies hchecked ?_ _ _ herr, htext⟩ hcalls
          rw [htree]
          exact hf
        · rw [hf.setter] at hno
          cases hno
        · rw [hsets.2 hf.password] at hno
          cases hno

/-! ## Late failures -/

/-- A device on which `chpasswd` is there and works. -/
def Bench.tools : Tools where
  lookPath name := if name = "chpasswd" then some "/usr/sbin/chpasswd" else none
  isFile _ := false
  run _ _ _ := none

def Bench.setter : ChpasswdSetter := ⟨"", ""⟩

theorem works_bench : Bench.setter.Works Bench.tools :=
  ⟨.inl (by decide), fun _ _ _ => rfl⟩

theorem obliging_bench : Bench.calm.Obliging :=
  ⟨fun _ _ => rfl, fun _ => rfl, fun _ => rfl, rfl⟩

/-- The bench with all its files. -/
def Bench.whole : Device :=
  Bench.device (Bench.files Bench.wireless Bench.network (some Config.empty))

/-- What the caller of a failed run is told. -/
def faultText : EStateM.Result Fault Device Unit → Option String
  | .ok _ _ => none
  | .error f _ => some f.text

theorem not_uciFailed {r : EStateM.Result Fault Device Unit} {text : String}
    (htext : faultText r = some text) (hno : ∀ w ∈ callTexts, ¬ w.toList <:+: text.toList) :
    ¬ UciFailed r := by
  rintro ⟨f, d, e, rfl, hraised, hf⟩
  obtain rfl : f.text = text := Option.some.inj htext
  obtain ⟨w, hw, hinfix⟩ := hraised.says
  exact hno w hw (by rw [hf]; exact hinfix)

/-- A run that completes has not failed. -/
theorem not_uciFailed_of_succeeds {m : EStateM Fault Device Unit}
    (h : succeeds m d = true) : ¬ UciFailed (m d) := by
  rintro ⟨f, d', e, hrun, -⟩
  rw [ok_of_succeeds h] at hrun
  cases hrun

/-- The bench's own profile can be applied. -/
theorem accepted_run_completes_bench :
    succeeds (Bench.service.applySetup (Bench.calm.setting Bench.setter Bench.tools Bench.profile)
        (some Bench.profile)) Bench.whole = true ↔
      Feasible Bench.service Bench.profile Bench.whole.host.tree :=
  accepted_run_completes_iff works_bench obliging_bench (by unfold Service.Accepts; decide +kernel)
    (not_uciFailed_of_succeeds (by decide +kernel))

/-- The profile with a colon in its password. -/
def Bench.coloned : MeshNodeProfile := { Bench.profile with adminPassword := "pass:word" }

/-- A gate behind a firewall whose uplink is a wireless network. -/
def Bench.stationed : MeshNodeProfile :=
  { Bench.profile with
    role := .meshGate
    deviceMode := .meshgate .routerFirewall
    uplink := some ⟨.wirelessSta, "", some ⟨"radio0", "upstream", "passphrase", .sae⟩⟩ }

/-- Profiles that the first phase accepts and a later one turns away, though
no call and no command has failed: one for a scenario there is not, once the
configs have been reset, the other for its password, once they have been
committed. -/
theorem accepted_profiles_fail_late :
    (∀ p ∈ [Bench.stationed, Bench.coloned], Bench.service.Accepts p Bench.whole ∧
      succeeds (Bench.service.applySetup (Bench.calm.setting Bench.setter Bench.tools p) (some p))
        Bench.whole = false ∧
      ¬ UciFailed (Bench.service.applySetup (Bench.calm.setting Bench.setter Bench.tools p) (some p)
        Bench.whole)) ∧
    Bench.setter.Works Bench.tools ∧ Bench.calm.Obliging := by
  have hstationed : faultText (Bench.service.applySetup
      (Bench.calm.setting Bench.setter Bench.tools Bench.stationed) (some Bench.stationed) Bench.whole)
        = some "unsupported scenario for role=MESH_ROLE_MESH_GATE" := by decide +kernel
  have hcoloned : faultText (Bench.service.applySetup
      (Bench.calm.setting Bench.setter Bench.tools Bench.coloned) (some Bench.coloned) Bench.whole)
        = some "chpasswd: exit status 1" := by decide +kernel
  refine ⟨fun p hp => ?_, works_bench, obliging_bench⟩
  rcases List.mem_pair.1 hp with rfl | rfl
  · exact ⟨by unfold Service.Accepts; decide +kernel, by decide +kernel,
      not_uciFailed hstationed (by decide +kernel)⟩
  · exact ⟨by unfold Service.Accepts; decide +kernel, by decide +kernel,
      not_uciFailed hcoloned (by decide +kernel)⟩

end Setup

end OpenManet
