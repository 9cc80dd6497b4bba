import OpenManet.Setup.Apply
import OpenManet.Network.Frame
/-!
# What the phases touch

Every phase stays within the wizard's configs. The resets bring none into
being, and need the configs they list to be there; of the later phases only
those that add sections can create one.
-/

namespace OpenManet

namespace Setup

open Uci Fallible Network

variable {S : Service} {W : World} {p : MeshNodeProfile}

/-- The configs some phase may bring into being. -/
def bornConfigs : List String :=
  ["wireless", "network", "dhcp", "firewall", "umdns", "openmanetd", "luci"]

section Phases

variable {cs born : List String}

theorem within_resetWireless (hc : "wireless" ∈ cs) : Within (Edits cs born) resetWireless :=
  within_bind (within_saying within_getSections) fun _ =>
    within_bind (within_forM fun _ => within_whitelistDeviceFields hc) fun _ =>
      within_bind (within_removeNonMeshIfacesOnMorseDevices hc) fun _ =>
        within_bind (within_saying within_getSections) fun _ =>
          within_bind (within_forM fun _ => within_whitelistInterfaceFields hc) fun _ =>
            within_disableAllInterfaces hc

theorem within_resetFirewall (hf : "firewall" ∈ cs) : Within (Edits cs born) resetFirewall :=
  within_bind (within_removeAllRules hf) fun _ =>
    within_bind (within_whitelistAndDisableForwardings hf) fun _ => within_unsetMtuFixAndMasq hf

theorem within_resetDhcp (hd : "dhcp" ∈ cs) : Within (Edits cs born) resetDhcp :=
  within_bind (within_whitelistAndIgnoreAllPools hd) fun _ => within_whitelistDnsmasqSurvivors hd

theorem within_resetInterfaces (hn : "network" ∈ cs) :
    Within (Edits cs born) S.resetInterfaces :=
  within_bind (within_deleteSections hn) fun _ =>
    within_bind (within_unsetDeviceMTU hn) fun _ =>
      within_bind (within_deleteSections hn) fun _ => within_unsetGatewayAndDeviceOnInterfaces hn

theorem within_resetNetwork (hf : "firewall" ∈ cs) (hd : "dhcp" ∈ cs) (hn : "network" ∈ cs) :
    Within (Edits cs born) S.resetNetwork :=
  within_bind (within_resetFirewall hf) fun _ =>
    within_bind (within_resetDhcp hd) fun _ => within_resetInterfaces hn

theorem within_writeHostname (hc : "system" ∈ cs) : Within (Edits cs born) (S.writeHostname p) := by
  grind [Service.writeHostname]

theorem within_setTimezone (hc : "system" ∈ cs) : Within (Edits cs born) (S.setTimezone p) := by
  grind [Service.setTimezone]

theorem within_scenarioOf : Within (Edits cs born) (scenarioOf p) := by
  grind [scenarioOf]

theorem within_applyScenarioUplinkBinding {scenario : ScenarioKind} (hn : "network" ∈ cs)
    (hn' : "network" ∈ born) : Within (Edits cs born) (S.applyScenarioUplinkBinding p scenario) := by
  cases scenario <;> grind [Service.applyScenarioUplinkBinding, setInterfaceProto,
    ensureWanInterface, ensureWan6Interface]

theorem within_stageTransportMTU {ports : List String} (hn : "network" ∈ cs)
    (hn' : "network" ∈ born) : Within (Edits cs born) (stageTransportMTU ports) := by
  grind [stageTransportMTU]

theorem within_ahwlanIPaddr : Within (Edits cs born) (S.ahwlanIPaddr p) := by
  grind [Service.ahwlanIPaddr]

theorem within_baseNetwork (hn : "network" ∈ cs) (hn' : "network" ∈ born) (hu : "umdns" ∈ cs)
    (hu' : "umdns" ∈ born) : Within (Edits cs born) (S.baseNetwork p) :=
  within_bind within_scenarioOf fun _ =>
    within_bind within_ahwlanIPaddr fun _ =>
      within_bind (within_saying (within_setupAhwlanInterface hn hn')) fun _ =>
        within_bind (within_saying (within_stageUmdnsNetworks hu hu')) fun _ =>
          within_bind (within_saying (within_createBridgeDevice hn hn')) fun _ =>
            within_bind (within_stageTransportMTU hn hn') fun _ =>
              within_bind (within_saying (within_setType hn)) fun _ =>
                within_applyScenarioUplinkBinding hn hn'

theorem within_wirelessMesh (hc : "wireless" ∈ cs) (hb : "wireless" ∈ born) :
    Within (Edits cs born) (wirelessMesh p) := by
  grind [wirelessMesh]

@[grind ←] theorem within_writeAPIface {ap : RadioApProfile} (hc : "wireless" ∈ cs)
    (hb : "wireless" ∈ born) : Within (Edits cs born) (writeAPIface ap) := by
  grind [writeAPIface]

@[grind ←] theorem within_writeMeshBackhaulIface {radio : String} {bh : MeshBackhaulProfile}
    (hc : "wireless" ∈ cs) (hb : "wireless" ∈ born) :
    Within (Edits cs born) (writeMeshBackhaulIface radio bh) := by
  grind [writeMeshBackhaulIface]

@[grind ←] theorem within_writeSTAIface {w : WifiStaProfile} (hc : "wireless" ∈ cs)
    (hb : "wireless" ∈ born) : Within (Edits cs born) (writeSTAIface w) := by
  grind [writeSTAIface]

theorem within_perRadioAPSta (hc : "wireless" ∈ cs) (hb : "wireless" ∈ born) :
    Within (Edits cs born) (perRadioAPSta p) := by
  refine within_bind (within_forM fun ap => ?_) fun _ => ?_
  · grind [writeRadio]
  · grind

theorem within_ensureZone {networkID : String} (hf : "firewall" ∈ cs) (hf' : "firewall" ∈ born) :
    Within (Edits cs born) (ensureZone networkID) := by
  grind [ensureZone]

theorem within_setupAhwlanDhcp (hd : "dhcp" ∈ cs) (hd' : "dhcp" ∈ born) :
    Within (Edits cs born) S.setupAhwlanDhcp := by
  grind [Service.setupAhwlanDhcp]

theorem within_writeLuciBookkeeping (hl : "luci" ∈ cs) (hl' : "luci" ∈ born) :
    Within (Edits cs born) writeLuciBookkeeping := by
  refine within_bind (within_ignored (within_addSection hl hl')) fun _ =>
    within_bind (within_saying (within_setType hl)) fun _ => within_bind within_tree fun t => ?_
  split
  · exact within_ite (within_saying (within_del hl)) (within_pure _)
  · exact within_pure _

section Scenario

variable (hf : "firewall" ∈ cs) (hf' : "firewall" ∈ born) (hd : "dhcp" ∈ cs) (hd' : "dhcp" ∈ born)
  (hn : "network" ∈ cs) (hn' : "network" ∈ born) (ho : "openmanetd" ∈ cs)
  (ho' : "openmanetd" ∈ born) (hl : "luci" ∈ cs) (hl' : "luci" ∈ born)
include hn hn' ho ho' hl hl'

theorem within_writeWizardBookkeeping : Within (Edits cs born) (writeWizardBookkeeping p) := by
  refine within_bind (within_ignored (within_addSection hn hn')) fun _ =>
    within_bind (within_forM fun _ => within_setType hn) fun _ => within_bind ?_ fun _ => ?_
  · exact within_bind (within_ignored (within_addSection ho ho')) fun _ => within_setOptions ho
  · exact within_writeLuciBookkeeping hl hl'

include hf hf' hd hd'

theorem within_scenarioMeshGateRouter {upstreamZone : String} :
    Within (Edits cs born) (S.scenarioMeshGateRouter p upstreamZone) := by
  exact within_bind (within_ensureZone hf hf') fun _ =>
    within_bind (within_saying (within_getOrCreateZone hf hf')) fun _ =>
      within_bind (within_onlyIf (within_saying (within_appendZoneNetwork hf))) fun _ =>
        within_bind (within_saying (within_getOrCreateForwarding hf hf')) fun _ =>
          within_bind (within_onlyIf (within_saying (within_setZoneOption hf))) fun _ =>
            within_bind (within_saying (within_setZoneOption hf)) fun _ =>
              within_bind (within_addDefaultWanFirewallRules hf hf') fun _ =>
                within_bind (within_setupAhwlanDhcp hd hd') fun _ =>
                  within_writeWizardBookkeeping hn hn' ho ho' hl hl'

theorem within_scenarioMeshPointExtender :
    Within (Edits cs born) (S.scenarioMeshPointExtender p) :=
  within_bind (within_ensureZone hf hf') fun _ =>
    within_bind (within_ensureZone hf hf') fun _ =>
      within_bind (within_saying (within_getOrCreateForwarding hf hf')) fun _ =>
        within_bind (within_addDefaultWanFirewallRules hf hf') fun _ =>
          within_bind (within_setupAhwlanDhcp hd hd') fun _ =>
            within_writeWizardBookkeeping hn hn' ho ho' hl hl'

theorem within_scenarioMeshPointNone : Within (Edits cs born) (S.scenarioMeshPointNone p) := by
  refine within_bind (within_saying (within_setType hn)) fun _ =>
    within_bind (within_saying (within_del hn)) fun _ =>
      within_bind (within_ensureZone hf hf') fun _ =>
        within_bind (within_ensureZone hf hf') fun _ =>
          within_bind (within_addDefaultWanFirewallRules hf hf') fun _ =>
            within_bind ?_ fun _ => within_writeWizardBookkeeping hn hn' ho ho' hl hl'
  grind [Service.setupLanDhcpNoUplink]

theorem within_scenarioTopology : Within (Edits cs born) (S.scenarioTopology p) := by
  refine within_bind within_scenarioOf fun scenario => ?_
  cases scenario with
  | meshGateRouterEth => exact within_scenarioMeshGateRouter hf hf' hd hd' hn hn' ho ho' hl hl'
  | meshGateRouterFirewallEth =>
      exact within_scenarioMeshGateRouter hf hf' hd hd' hn hn' ho ho' hl hl'
  | meshGateRouterWifiSta => exact within_scenarioMeshGateRouter hf hf' hd hd' hn hn' ho ho' hl hl'
  | meshPointExtender => exact within_scenarioMeshPointExtender hf hf' hd hd' hn hn' ho ho' hl hl'
  | meshPointNone => exact within_scenarioMeshPointNone hf hf' hd hd' hn hn' ho ho' hl hl'

end Scenario

theorem within_batmanAdv (hn : "network" ∈ cs) (hn' : "network" ∈ born) :
    Within (Edits cs born) (S.batmanAdv p) := by
  grind [Service.batmanAdv]

theorem within_mesh11sd (hm : "mesh11sd" ∈ cs) : Within (Edits cs born) (mesh11sd p) :=
  within_bind (within_setMesh11sd hm) fun _ =>
    within_bind (within_setMesh11sd hm) fun _ =>
      within_bind (within_setMesh11sd hm) fun _ => within_setMesh11sd hm

end Phases

/-! ## The configs of each phase -/

theorem edits_resetWireless : Within (Edits ["wireless"] []) resetWireless :=
  within_resetWireless (by decide)

theorem edits_resetFirewall : Within (Edits ["firewall"] []) resetFirewall :=
  within_resetFirewall (by decide)

theorem edits_resetDhcp : Within (Edits ["dhcp"] []) resetDhcp := within_resetDhcp (by decide)

theorem edits_resetInterfaces : Within (Edits ["network"] []) S.resetInterfaces :=
  within_resetInterfaces (by decide)

theorem edits_resetNetwork : Within (Edits ["firewall", "dhcp", "network"] []) S.resetNetwork :=
  within_resetNetwork (by decide) (by decide) (by decide)

theorem edits_writeHostname : Within (Edits ["system"] []) (S.writeHostname p) :=
  within_writeHostname (by decide)

theorem edits_setTimezone : Within (Edits ["system"] []) (S.setTimezone p) :=
  within_setTimezone (by decide)

theorem edits_baseNetwork :
    Within (Edits ["network", "umdns"] ["network", "umdns"]) (S.baseNetwork p) :=
  within_baseNetwork (by decide) (by decide) (by decide) (by decide)

theorem edits_wirelessMesh : Within (Edits ["wireless"] ["wireless"]) (wirelessMesh p) :=
  within_wirelessMesh (by decide) (by decide)

theorem edits_perRadioAPSta : Within (Edits ["wireless"] ["wireless"]) (perRadioAPSta p) :=
  within_perRadioAPSta (by decide) (by decide)

theorem edits_scenarioTopology :
    Within (Edits ["firewall", "dhcp", "network", "openmanetd", "luci"]
      ["firewall", "dhcp", "network", "openmanetd", "luci"]) (S.scenarioTopology p) :=
  within_scenarioTopology (by decide) (by decide) (by decide) (by decide) (by decide) (by decide)
    (by decide) (by decide) (by decide) (by decide)

theorem edits_batmanAdv : Within (Edits ["network"] ["network"]) (S.batmanAdv p) :=
  within_batmanAdv (by decide) (by decide)

theorem edits_mesh11sd : Within (Edits ["mesh11sd"] []) (mesh11sd p) := within_mesh11sd (by decide)

/-- **The edits stay within the wizard's configs.** -/
theorem within_editPhases {ph : Phase × String × Prog Unit} (hph : ph ∈ S.editPhases p) :
    Within (Edits wizardConfigs bornConfigs) ph.2.2 := by
  simp only [Service.editPhases, List.mem_cons, List.not_mem_nil, or_false] at hph
  rcases hph with rfl | rfl | rfl | rfl | rfl | rfl | rfl | rfl | rfl | rfl
  · exact within_resetWireless (by decide)
  · exact within_resetNetwork (by decide) (by decide) (by decide)
  · exact within_writeHostname (by decide)
  · exact within_setTimezone (by decide)
  · exact within_baseNetwork (by decide) (by decide) (by decide) (by decide)
  · exact within_wirelessMesh (by decide) (by decide)
  · exact within_perRadioAPSta (by decide) (by decide)
  · exact within_scenarioTopology (by decide) (by decide) (by decide) (by decide) (by decide)
      (by decide) (by decide) (by decide) (by decide) (by decide)
  · exact within_batmanAdv (by decide) (by decide)
  · exact within_mesh11sd (by decide)

/-- So do the edits and the commit. -/
theorem within_mutationPhases {ph : Phase × String × Prog Unit} (hph : ph ∈ S.mutationPhases p) :
    Within (Touches wizardConfigs bornConfigs) ph.2.2 := by
  rcases List.mem_append.1 hph with hph | hph
  · exact Edits.touches (within_editPhases hph)
  · rw [List.mem_singleton.1 hph]
    exact within_commit

end Setup

end OpenManet
