import OpenManet.Network.Relayed
import OpenManet.Setup.Ports
/-!
# Phases that fail only where a call does

Each phase of the wizard, with what it needs so that it does not give up on
its own account. Most need nothing. The others look for something that the
profile names or that the device is to have: a scenario, a zone under the
network's name, a section of the system config, the bridge that an earlier
phase has made.
-/

namespace OpenManet

namespace Setup

open Uci Fallible Network

variable {S : Service} {p : MeshNodeProfile} {h : Host}

/-! ## Resets and system -/

theorem relays_resetWireless : Relays resetWireless h := by
  unfold resetWireless
  refine relays_then (relays_saying relays_getSections) (leaves_saying.2 (leaves_listed h)) ?_
  rintro devices h₁ ⟨-, hdevices⟩
  refine relays_bind (relays_forM_of_mem fun dev hdev _ => ?_) fun _ h₂ => ?_
  · unfold whitelistDeviceFields
    rw [if_neg (hdevices dev hdev)]
    exact relays_whitelistFields
  refine relays_bind relays_removeNonMeshIfacesOnMorseDevices fun _ h₃ => ?_
  refine relays_then (relays_saying relays_getSections) (leaves_saying.2 (leaves_listed h₃)) ?_
  rintro ifaces h₄ ⟨-, hifaces⟩
  refine relays_bind (relays_forM_of_mem fun iface hiface _ => ?_) fun _ _ =>
    relays_disableAllInterfaces
  unfold whitelistInterfaceFields
  rw [if_neg (hifaces iface hiface)]
  exact relays_whitelistFields

theorem relays_resetNetwork : Relays S.resetNetwork h :=
  relays_bind (relays_bind relays_removeAllRules fun _ _ =>
    relays_bind relays_whitelistAndDisableForwardings fun _ _ => relays_unsetMtuFixAndMasq) fun _ _ =>
  relays_bind (relays_bind relays_whitelistAndIgnoreAllPools fun _ _ =>
    relays_whitelistDnsmasqSurvivors) fun _ _ =>
  relays_bind relays_deleteSections fun _ _ => relays_bind relays_unsetDeviceMTU fun _ _ =>
    relays_bind relays_deleteSections fun _ _ => relays_unsetGatewayAndDeviceOnInterfaces

theorem relays_writeHostname (hname : p.hostname ≠ "") (hsystem : SystemListed h.tree) :
    Relays (S.writeHostname p) h := by
  unfold Service.writeHostname
  refine relays_ite (fun _ => relays_stageSystemHostname hname hsystem) fun _ => ?_
  refine relays_then (relays_saying relays_getSections) (leaves_systemSections hsystem)
    fun l h' hne => ?_
  cases l with
  | nil => exact absurd rfl hne
  | cons s l => exact relays_setType

/-- The hostname has a section to go to. -/
theorem leaves_writeHostname (h : Host) :
    Leaves (S.writeHostname p) h fun _ _ => SystemListed h.tree := by
  unfold Service.writeHostname
  rw [leaves_ite]
  refine ⟨fun _ => ?_, fun _ => ?_⟩
  · unfold stageSystemHostname
    rw [leaves_ite]
    refine ⟨fun _ => leaves_fail.2 trivial, fun _ => ?_⟩
    rw [leaves_bind]
    exact (leaves_firstSystemSection h).mono fun _ _ hsystem _ _ _ => hsystem
  · rw [leaves_bind, leaves_saying]
    refine leaves_getSections fun c tick hmem => ?_
    cases hlist : c.refs "system" with
    | nil => exact leaves_fail.2 trivial
    | cons s l =>
        refine fun _ _ _ => ⟨c, hmem, ?_⟩
        rw [hlist]
        exact List.cons_ne_nil _ _

/-- The zone the profile asks for is in the table, with a rule. -/
def ZoneKnown (S : Service) (p : MeshNodeProfile) : Prop :=
  p.timezone = "" ∨ ∃ posix, S.posixTZ p.timezone = some posix ∧ posix ≠ ""

theorem relays_setTimezone (hzone : ZoneKnown S p) (hsystem : SystemListed h.tree) :
    Relays (S.setTimezone p) h := by
  unfold Service.setTimezone
  refine relays_ite (fun _ => relays_pure _) fun hne => ?_
  obtain ⟨posix, hposix, hsome⟩ := hzone.resolve_left hne
  rw [hposix]
  exact relays_stageSystemTimezone hne hsome hsystem

theorem leaves_setTimezone (h : Host) : Leaves (S.setTimezone p) h fun _ _ => ZoneKnown S p := by
  unfold Service.setTimezone
  rw [leaves_ite, leaves_pure]
  refine ⟨.inl, fun hne => ?_⟩
  cases hposix : S.posixTZ p.timezone with
  | none => exact leaves_fail.2 trivial
  | some posix =>
      unfold stageSystemTimezone
      rw [leaves_ite]
      refine ⟨fun _ => leaves_fail.2 trivial, fun hsome => ?_⟩
      exact fun _ _ _ => .inr ⟨posix, hposix, (not_or.1 hsome).2⟩

/-! ## Base network -/

theorem port_ne_empty {port : String} (hport : port ∈ S.ethernetPorts) : port ≠ "" := by
  unfold Service.ethernetPorts at hport
  split at hport
  · rw [List.mem_singleton.1 hport]
    decide
  · rintro rfl
    exact absurd (List.mem_filter.1 hport).2 (by decide)

theorem headPort_ne_empty : S.ethernetPorts.headD "" ≠ "" := by
  cases hports : S.ethernetPorts with
  | nil =>
      unfold Service.ethernetPorts at hports
      split at hports
      · cases hports
      · next hne => exact absurd hports hne
  | cons port l =>
      refine port_ne_empty (S := S) ?_
      rw [hports]
      exact List.mem_cons_self ..

theorem uplinkPort_ne_empty : S.resolveUplinkPort p ≠ "" := by
  unfold Service.resolveUplinkPort
  split
  · split
    · exact headPort_ne_empty
    · assumption
  · exact headPort_ne_empty

theorem relays_applyScenarioUplinkBinding (scenario : ScenarioKind) :
    Relays (S.applyScenarioUplinkBinding p scenario) h := by
  have hport : S.resolveUplinkPort p ≠ "" := uplinkPort_ne_empty
  cases scenario with
  | meshGateRouterEth =>
      exact relays_bind (relays_saying relays_setType) fun _ _ =>
        relays_bind (relays_saying (relays_setInterfaceDevice (by decide) hport)) fun _ _ =>
          relays_saying relays_ensureUplinkInterface
  | meshGateRouterFirewallEth =>
      exact relays_bind (relays_saying relays_ensureUplinkInterface) fun _ _ =>
        relays_bind (relays_saying relays_ensureUplinkInterface) fun _ _ =>
          relays_bind (relays_saying (relays_setInterfaceDevice (by decide) hport)) fun _ _ =>
            relays_saying (relays_setInterfaceDevice (by decide) hport)
  | meshGateRouterWifiSta => exact relays_saying relays_setType
  | meshPointExtender => exact relays_pure _
  | meshPointNone => exact relays_pure _

/-- A mesh point is drawn an address. -/
def AddressDrawn (S : Service) (p : MeshNodeProfile) : Prop :=
  p.role = .meshPoint → S.randomMeshIP ≠ none

theorem relays_baseNetwork {scenario : ScenarioKind} (hscenario : classifyScenario p = .ok scenario)
    (hdrawn : AddressDrawn S p) : Relays (S.baseNetwork p) h := by
  have hports : ∀ port ∈ S.ethernetPortsForAhwlan p scenario, port ≠ "" := by
    intro port hport
    have hin : port ∈ S.ethernetPorts := by
      revert hport
      cases scenario <;> simp +contextual [Service.ethernetPortsForAhwlan]
    exact port_ne_empty hin
  unfold Service.baseNetwork scenarioOf
  rw [hscenario]
  refine relays_then (relays_pure scenario) (Q := fun s _ => s = scenario) ?_ ?_
  · exact (leaves_pure _).2 rfl
  rintro _ h₁ rfl
  refine relays_bind ?_ fun _ _ => ?_
  · refine relays_ite (fun hpoint => ?_) fun _ => relays_pure _
    obtain ⟨ip, hip⟩ := Option.ne_none_iff_exists'.1 (hdrawn hpoint)
    rw [hip]
    exact relays_pure _
  refine relays_bind (relays_saying relays_setupAhwlanInterface) fun _ _ =>
    relays_bind (relays_saying (relays_stageUmdnsNetworks (by decide))) fun _ _ =>
      relays_bind (relays_saying (relays_createBridgeDevice (by decide))) fun _ _ =>
        relays_bind ?_ fun _ _ => relays_bind (relays_saying relays_setType) fun _ _ =>
          relays_applyScenarioUplinkBinding _
  exact relays_bind (relays_saying (relays_setDeviceMTU (by decide) (by decide))) fun _ _ =>
    relays_forM_of_mem fun port hport _ =>
      relays_bind (relays_saying (relays_setDeviceMTU (hports port hport) (by decide))) fun _ _ =>
        relays_pure _

/-- The base network is set up for a scenario, and a mesh point with an
address. -/
theorem drawn_of_baseNetwork (h : Host) :
    Leaves (S.baseNetwork p) h fun _ _ => AddressDrawn S p := by
  unfold Service.baseNetwork
  refine leaves_after fun scenario h₁ => ?_
  rw [leaves_bind]
  have hdrawn : Leaves (S.ahwlanIPaddr p) h₁ fun _ _ => AddressDrawn S p := by
    unfold Service.ahwlanIPaddr
    rw [leaves_ite, leaves_pure]
    refine ⟨fun _ => ?_, fun hother hpoint => absurd hpoint hother⟩
    cases hip : S.randomMeshIP with
    | none => exact leaves_fail.2 trivial
    | some ip => exact (leaves_pure _).2 fun _ => by rw [hip]; exact Option.some_ne_none _
  exact hdrawn.mono fun _ _ hyes _ _ _ => hyes

/-! ## Wireless -/

theorem relays_wirelessMesh {mesh : MeshRadioConfig} (hmesh : p.mesh = some mesh)
    (hname : mesh.radioName ≠ "") : Relays (wirelessMesh p) h := by
  unfold wirelessMesh
  rw [hmesh]
  dsimp only
  rw [if_neg hname]
  exact relays_bind relays_setOptions fun _ _ => relays_bind relays_ignored fun _ _ =>
    relays_bind relays_setOptions fun _ _ => relays_saying relays_del

theorem relays_writeAPIface {ap : RadioApProfile} : Relays (writeAPIface ap) h :=
  relays_bind relays_ignored fun _ _ => relays_bind relays_setOptions fun _ _ =>
    relays_ite (fun _ => relays_bind relays_setOptions fun _ _ => relays_saying relays_del)
      fun _ => relays_bind relays_setOptions fun _ _ => relays_forM fun _ _ =>
        relays_saying relays_del

theorem relays_writeMeshBackhaulIface {radio : String} {bh : MeshBackhaulProfile} :
    Relays (writeMeshBackhaulIface radio bh) h :=
  relays_bind relays_ignored fun _ _ => relays_bind relays_setOptions fun _ _ =>
    relays_bind (relays_saying relays_del) fun _ _ => relays_bind relays_setOptions fun _ _ =>
      relays_saying relays_del

theorem relays_writeSTAIface {w : WifiStaProfile} : Relays (writeSTAIface w) h :=
  relays_bind relays_ignored fun _ _ => relays_bind relays_setOptions fun _ _ =>
    relays_saying relays_del

theorem relays_perRadioAPSta : Relays (perRadioAPSta p) h := by
  refine relays_bind (relays_forM fun ap _ => relays_bind relays_writeAPIface fun _ _ => ?_)
    fun _ _ => ?_
  · split
    · exact relays_pure _
    · exact relays_writeMeshBackhaulIface
  · split
    · exact relays_writeSTAIface
    · exact relays_pure _

/-! ## Scenario topology -/

theorem relays_writeWizardBookkeeping : Relays (writeWizardBookkeeping p) h := by
  refine relays_bind relays_ignored fun _ _ => relays_bind (relays_forM fun _ _ => relays_setType)
    fun _ _ => relays_bind (relays_bind relays_ignored fun _ _ => relays_setOptions) fun _ _ =>
      relays_bind relays_ignored fun _ _ => relays_bind (relays_saying relays_setType) fun _ _ =>
        relays_tree_bind ?_
  split
  · exact relays_ite (fun _ => relays_saying relays_del) fun _ => relays_pure _
  · exact relays_pure _

/-- What the scenarios do last. -/
theorem relays_rulesAndPool : Relays (do
    addDefaultWanFirewallRules "ahwlan"
    S.setupAhwlanDhcp
    writeWizardBookkeeping p) h :=
  relays_bind (relays_addDefaultWanFirewallRules (by decide)) fun _ _ =>
    relays_bind (relays_bind (relays_saying (relays_getOrCreateDhcpPool (by decide) (by decide)))
      fun _ _ => relays_pure _) fun _ _ => relays_writeWizardBookkeeping

section Zones

variable {n m : String} (hn : Plain n) (hne : n ≠ "")
include hn hne

theorem relays_ensureZone (hready : ZoneReady h.tree n) : Relays (ensureZone n) h :=
  relays_then (relays_saying (relays_getOrCreateZone hn hne))
    (leaves_saying.2 (leaves_zoneNamed hn hne h)) fun _ _ hnamed =>
      relays_saying (relays_setZoneOption hne (hnamed.2 hready))

/-- A zone is ensured where it was ready to bear the name, and those of
other networks stay as they were. -/
theorem leaves_ensureZone (hm : Plain m) (hletter : m.toList.head? ≠ n.toList.head?) (h : Host) :
    Leaves (ensureZone n) h fun _ h' => ZoneReady h.tree n ∧
      zoneView m h'.tree = zoneView m h.tree := by
  unfold ensureZone
  rw [leaves_bind, leaves_saying]
  intro _ h₁ hrun
  have hnamed := leaves_zoneNamed hn hne h _ _ hrun
  have hview := leaves_zoneView hn hne hm hletter h _ _ hrun
  rw [leaves_saying]
  refine (leaves_setZoneOption (by decide) (by decide) m h₁).mono ?_
  rintro _ h₂ ⟨hyes, hview'⟩
  exact ⟨hnamed.1 hyes, hview'.trans hview⟩

end Zones

/-- The zones are ready for the scenario: the mesh's own, and the one that
leads upstream. A gate behind a firewall also clamps on the zone `lan`, which
it does not make. -/
def ZonesReady (t : Tree) : ScenarioKind → Prop
  | .meshGateRouterFirewallEth =>
      ZoneReady t "ahwlan" ∧ ZoneReady t "wan" ∧ zoneNamed t "lan" = true
  | _ => ZoneReady t "ahwlan" ∧ ZoneReady t "lan"

/-- The edits of a gate once its zones are there. -/
theorem relays_gateForwarding {upstreamZone : String} (hup : upstreamZone ≠ "")
    (hupstream : zoneNamed h.tree upstreamZone = true) (hlan : zoneNamed h.tree "lan" = true) :
    Relays (do
      onlyIf (upstreamZone = "wan") <|
        saying "adding wan6 to wan zone" (appendZoneNetwork "wan" "wan6")
      let _ ← saying "creating mmrouter forwarding"
        (getOrCreateForwarding "ahwlan" upstreamZone "mmrouter" true)
      onlyIf (upstreamZone = "lan") <|
        saying "setting lan masq" (setZoneOption "lan" "masq" "1")
      saying "setting lan mtu_fix" (setZoneOption "lan" "mtu_fix" "1")
      addDefaultWanFirewallRules "ahwlan"
      S.setupAhwlanDhcp
      writeWizardBookkeeping p) h := by
  have hjoin : Leaves (onlyIf (upstreamZone = "wan") <|
      saying "adding wan6 to wan zone" (appendZoneNetwork "wan" "wan6")) h fun _ h' =>
        zoneNamed h'.tree "lan" = true := by
    rw [leaves_onlyIf, leaves_saying]
    refine ⟨fun _ => (leaves_appendZoneNetwork h).mono fun _ h' hsame => ?_, fun _ => hlan⟩
    rw [hsame.2, hlan]
  refine relays_then (relays_onlyIf fun hwan => relays_saying ?_) hjoin fun _ h₁ hlan₁ => ?_
  · subst hwan
    exact relays_appendZoneNetwork (by decide) (by decide) hupstream
  refine relays_bind_of (relays_saying (relays_getOrCreateForwarding (by decide) hup)) ?_
  intro _ h₂ hrun₂
  have hlan₂ : zoneNamed h₂.tree "lan" = true := by
    rw [zoneNamed_of_names ((within_saying looks_names_getOrCreateForwarding).ok hrun₂), hlan₁]
  have hmasq : Leaves (onlyIf (upstreamZone = "lan") <|
      saying "setting lan masq" (setZoneOption "lan" "masq" "1")) h₂ fun _ h' =>
        zoneNamed h'.tree "lan" = true := by
    rw [leaves_onlyIf, leaves_saying]
    refine ⟨fun _ => (leaves_setZoneOption (by decide) (by decide) "lan" h₂).mono ?_, fun _ => hlan₂⟩
    rintro _ h' ⟨-, hview⟩
    rw [zoneNamed_of_view hview, hlan₂]
  refine relays_then (relays_onlyIf fun _ => relays_saying (relays_setZoneOption (by decide) hlan₂))
    hmasq fun _ h₃ hlan₃ => ?_
  exact relays_bind (relays_saying (relays_setZoneOption (by decide) hlan₃)) fun _ _ =>
    relays_rulesAndPool

theorem relays_gateLan (hready : ZoneReady h.tree "ahwlan" ∧ ZoneReady h.tree "lan") :
    Relays (S.scenarioMeshGateRouter p "lan") h := by
  unfold Service.scenarioMeshGateRouter
  refine relays_then (relays_ensureZone (by decide) (by decide) hready.1)
    (leaves_ensureZone (m := "lan") (by decide) (by decide) (by decide) (by decide) h) ?_
  rintro _ h₁ ⟨-, hview⟩
  refine relays_then (relays_saying (relays_getOrCreateZone (by decide) (by decide)))
    (leaves_saying.2 (leaves_zoneNamed (by decide) (by decide) h₁)) fun _ h₂ hnamed => ?_
  have hlan := hnamed.2 ((zoneReady_congr hview).2 hready.2)
  exact relays_gateForwarding (by decide) hlan hlan

theorem relays_gateWan (hready : ZoneReady h.tree "ahwlan" ∧ ZoneReady h.tree "wan" ∧
    zoneNamed h.tree "lan" = true) : Relays (S.scenarioMeshGateRouter p "wan") h := by
  unfold Service.scenarioMeshGateRouter
  refine relays_bind_of (relays_ensureZone (by decide) (by decide) hready.1) fun _ h₁ hrun₁ => ?_
  obtain ⟨-, hwan₁⟩ := leaves_ensureZone (by decide) (by decide) (m := "wan") (by decide) (by decide)
    h _ _ hrun₁
  obtain ⟨-, hlan₁⟩ := leaves_ensureZone (by decide) (by decide) (m := "lan") (by decide) (by decide)
    h _ _ hrun₁
  refine relays_bind_of (relays_saying (relays_getOrCreateZone (by decide) (by decide)))
    fun _ h₂ hrun₂ => ?_
  have hnamed := leaves_saying.2 (leaves_zoneNamed (n := "wan") (by decide) (by decide) h₁) _ _ hrun₂
  have hlan₂ := leaves_saying.2 (leaves_zoneView (n := "wan") (m := "lan") (by decide) (by decide)
    (by decide) (by decide) h₁) _ _ hrun₂
  refine relays_gateForwarding (by decide) (hnamed.2 ((zoneReady_congr hwan₁).2 hready.2.1)) ?_
  rw [zoneNamed_of_view hlan₂, zoneNamed_of_view hlan₁]
  exact hready.2.2

theorem relays_extender (hready : ZoneReady h.tree "ahwlan" ∧ ZoneReady h.tree "lan") :
    Relays (S.scenarioMeshPointExtender p) h := by
  unfold Service.scenarioMeshPointExtender
  refine relays_then (relays_ensureZone (by decide) (by decide) hready.2)
    (leaves_ensureZone (m := "ahwlan") (by decide) (by decide) (by decide) (by decide) h) ?_
  rintro _ h₁ ⟨-, hview⟩
  exact relays_bind (relays_ensureZone (by decide) (by decide) ((zoneReady_congr hview).2 hready.1))
    fun _ _ => relays_bind (relays_saying (relays_getOrCreateForwarding (by decide) (by decide)))
      fun _ _ => relays_rulesAndPool

theorem relays_scenarioTopology {scenario : ScenarioKind}
    (hscenario : classifyScenario p = .ok scenario) (hnone : scenario ≠ .meshPointNone)
    (hready : ZonesReady h.tree scenario) : Relays (S.scenarioTopology p) h := by
  unfold Service.scenarioTopology scenarioOf
  rw [hscenario]
  refine relays_then (relays_pure scenario) (Q := fun s h' => s = scenario ∧ h' = h) ?_ ?_
  · exact (leaves_pure _).2 ⟨rfl, rfl⟩
  rintro s h₁ ⟨rfl, rfl⟩
  cases s with
  | meshGateRouterEth => exact relays_gateLan hready
  | meshGateRouterFirewallEth => exact relays_gateWan hready
  | meshGateRouterWifiSta => exact relays_gateLan hready
  | meshPointExtender => exact relays_extender hready
  | meshPointNone => exact absurd rfl hnone

/-! ## What a scenario that ends well has found -/

theorem ready_of_gateLan (h : Host) :
    Leaves (S.scenarioMeshGateRouter p "lan") h fun _ _ =>
      ZoneReady h.tree "ahwlan" ∧ ZoneReady h.tree "lan" := by
  unfold Service.scenarioMeshGateRouter
  rw [leaves_bind]
  refine (leaves_ensureZone (m := "lan") (by decide) (by decide) (by decide) (by decide) h).mono ?_
  rintro _ h₁ ⟨hahwlan, hview⟩
  rw [leaves_bind, leaves_saying]
  refine (leaves_zoneNamed (by decide) (by decide) h₁).mono fun _ h₂ hnamed => ?_
  rw [leaves_bind, leaves_onlyIf]
  refine ⟨fun hno => absurd hno (by decide), fun _ => ?_⟩
  rw [leaves_bind, leaves_saying]
  intro _ h₃ hrun₃
  have hsame := zoneNamed_of_names (n := "lan") (looks_names_getOrCreateForwarding.ok hrun₃)
  rw [leaves_bind, leaves_onlyIf]
  refine ⟨fun _ => ?_, fun hno => absurd rfl hno⟩
  rw [leaves_saying]
  refine (leaves_setZoneOption (by decide) (by decide) "lan" h₃).mono ?_
  rintro _ h₄ ⟨hlan, -⟩
  rw [hsame] at hlan
  exact fun _ _ _ => ⟨hahwlan, (zoneReady_congr hview).1 (hnamed.1 hlan)⟩

theorem ready_of_gateWan (h : Host) :
    Leaves (S.scenarioMeshGateRouter p "wan") h fun _ _ =>
      ZoneReady h.tree "ahwlan" ∧ ZoneReady h.tree "wan" ∧ zoneNamed h.tree "lan" = true := by
  unfold Service.scenarioMeshGateRouter
  rw [leaves_bind]
  intro _ h₁ hrun₁
  obtain ⟨hahwlan, hwan₁⟩ := leaves_ensureZone (by decide) (by decide) (m := "wan") (by decide)
    (by decide) h _ _ hrun₁
  obtain ⟨-, hlan₁⟩ := leaves_ensureZone (by decide) (by decide) (m := "lan") (by decide) (by decide)
    h _ _ hrun₁
  rw [leaves_bind, leaves_saying]
  intro _ h₂ hrun₂
  have hnamed := leaves_zoneNamed (n := "wan") (by decide) (by decide) h₁ _ _ hrun₂
  have hlan₂ := leaves_zoneView (n := "wan") (m := "lan") (by decide) (by decide) (by decide)
    (by decide) h₁ _ _ hrun₂
  rw [leaves_bind, leaves_onlyIf]
  refine ⟨fun _ => ?_, fun hno => absurd rfl hno⟩
  rw [leaves_saying]
  refine (leaves_appendZoneNetwork h₂).mono ?_
  rintro _ h₃ ⟨hwan, hsame₃⟩
  rw [leaves_bind, leaves_saying]
  intro _ h₄ hrun₄
  have hsame₄ := zoneNamed_of_names (n := "lan") (looks_names_getOrCreateForwarding.ok hrun₄)
  rw [leaves_bind, leaves_onlyIf]
  refine ⟨fun hno => absurd hno (by decide), fun _ => ?_⟩
  rw [leaves_bind, leaves_saying]
  refine (leaves_setZoneOption (by decide) (by decide) "lan" h₄).mono ?_
  rintro _ h₅ ⟨hlan, -⟩
  rw [hsame₄, hsame₃, zoneNamed_of_view hlan₂, zoneNamed_of_view hlan₁] at hlan
  exact fun _ _ _ => ⟨hahwlan, (zoneReady_congr hwan₁).1 (hnamed.1 hwan), hlan⟩

theorem ready_of_extender (h : Host) :
    Leaves (S.scenarioMeshPointExtender p) h fun _ _ =>
      ZoneReady h.tree "ahwlan" ∧ ZoneReady h.tree "lan" := by
  unfold Service.scenarioMeshPointExtender
  rw [leaves_bind]
  refine (leaves_ensureZone (m := "ahwlan") (by decide) (by decide) (by decide) (by decide) h).mono ?_
  rintro _ h₁ ⟨hlan, hview⟩
  rw [leaves_bind]
  refine (leaves_ensureZone (m := "lan") (by decide) (by decide) (by decide) (by decide) h₁).mono ?_
  rintro _ h₂ ⟨hahwlan, -⟩
  exact fun _ _ _ => ⟨(zoneReady_congr hview).1 hahwlan, hlan⟩

/-- **A scenario that ends well** has found its zones ready. -/
theorem ready_of_scenarioTopology (hnone : classifyScenario p ≠ .ok .meshPointNone) (h : Host) :
    Leaves (S.scenarioTopology p) h fun _ _ =>
      ∃ scenario, classifyScenario p = .ok scenario ∧ ZonesReady h.tree scenario := by
  unfold Service.scenarioTopology scenarioOf
  cases hscenario : classifyScenario p with
  | error text => exact leaves_bind.2 (leaves_fail.2 trivial)
  | ok scenario =>
      rw [leaves_bind, leaves_pure]
      cases scenario with
      | meshGateRouterEth => exact (ready_of_gateLan h).mono fun _ _ hready => ⟨_, rfl, hready⟩
      | meshGateRouterFirewallEth =>
          exact (ready_of_gateWan h).mono fun _ _ hready => ⟨_, rfl, hready⟩
      | meshGateRouterWifiSta => exact (ready_of_gateLan h).mono fun _ _ hready => ⟨_, rfl, hready⟩
      | meshPointExtender => exact (ready_of_extender h).mono fun _ _ hready => ⟨_, rfl, hready⟩
      | meshPointNone => exact absurd hscenario hnone

/-! ## batman-adv and mesh11sd -/

/-- **The mesh device finds its bridge** where one is called so. -/
theorem relays_batmanAdv {x : Bridge} (hx : x ∈ bridges h.tree)
    (hcalled : x.isCalled "br-ahwlan" = true) : Relays (S.batmanAdv p) h := by
  unfold Service.batmanAdv
  refine relays_bind_of relays_setupBatmanDeviceOnNetwork fun _ h₁ hrun₁ => ?_
  have hw₁ : Wired.rel h h₁ := wired_setupBatmanDevice.ok hrun₁
  refine relays_bind_of relays_setupBatmanInterfaceOnDevice fun _ h₂ hrun₂ => ?_
  have hw₂ : Wired.rel h₁ h₂ := wired_setupBatmanInterface.ok hrun₂
  refine relays_then (relays_saying relays_findBridgeBySectionName)
    (leaves_saying.2 (leaves_findBridge h₂)) ?_
  rintro found h₃ ⟨-, c, -, ⟨-, hnone⟩ | ⟨a, e, b, -, rfl, -⟩⟩
  · rw [hw₂.1, hw₁.1] at hnone
    rw [hnone x hx] at hcalled
    cases hcalled
  · rw [if_neg (ownRef_ne_empty e)]
    exact relays_appendBridgePort (ownRef_ne_empty e) (by decide)

theorem relays_mesh11sd (hrole : p.role = .meshPoint ∨ p.role = .meshGate) : Relays (mesh11sd p) h :=
  relays_bind (relays_setMesh11sd (by decide)) fun _ _ =>
    relays_bind (relays_setMesh11sd (by decide)) fun _ _ =>
      relays_bind (relays_setMesh11sd (by rcases hrole with hrole | hrole <;> simp [hrole, protoToMeshRole]))
        fun _ _ => relays_setMesh11sd (by decide)

end Setup

end OpenManet
