import OpenManet.Network.Services
import OpenManet.Lib.Uci.Frame
/-!
# What the helpers leave alone

Each helper edits the configs it is named for and no other, and only those
that create a section can bring a config into being.
-/

namespace OpenManet

namespace Network

open Uci Fallible

variable {cs born : List String}

@[grind ←] theorem within_whitelistFields {config ref : String} {options allowList : List String}
    (hc : config ∈ cs) :
    Within (Edits cs born) (whitelistFields config ref options allowList) := by
  grind [whitelistFields]

@[grind ←] theorem within_deleteSections {config type what : String}
    {doomed : Tree → String → Bool} (hc : config ∈ cs) :
    Within (Edits cs born) (deleteSections config type what doomed) := by
  grind [deleteSections]

/-! ## Wireless -/

section Wireless

variable (hc : "wireless" ∈ cs)
include hc

@[grind ←] theorem within_disableAllInterfaces : Within (Edits cs born) disableAllInterfaces := by
  grind [disableAllInterfaces]

@[grind ←] theorem within_removeNonMeshIfacesOnMorseDevices :
    Within (Edits cs born) removeNonMeshIfacesOnMorseDevices := by
  grind [removeNonMeshIfacesOnMorseDevices]

@[grind ←] theorem within_whitelistDeviceFields {deviceName : String} {allowList : List String} :
    Within (Edits cs born) (whitelistDeviceFields deviceName allowList) := by
  grind [whitelistDeviceFields]

@[grind ←] theorem within_whitelistInterfaceFields {ifaceName : String} {allowList : List String} :
    Within (Edits cs born) (whitelistInterfaceFields ifaceName allowList) := by
  grind [whitelistInterfaceFields]

end Wireless

/-! ## Network -/

@[grind ←] theorem within_batmanInterfaceExists {name : String} :
    Within (Edits cs born) (batmanInterfaceExists name) := by
  grind [batmanInterfaceExists]

@[grind ←] theorem within_findBridgeBySectionName {bridgeName : String} :
    Within (Edits cs born) (findBridgeBySectionName bridgeName) := by
  grind [findBridgeBySectionName]

@[grind ←] theorem within_findDeviceByName {name : String} :
    Within (Edits cs born) (findDeviceByName name) := by
  grind [findDeviceByName]

section Interfaces

variable (hc : "network" ∈ cs)
include hc

@[grind ←] theorem within_unsetGatewayAndDeviceOnInterfaces :
    Within (Edits cs born) unsetGatewayAndDeviceOnInterfaces := by
  grind [unsetGatewayAndDeviceOnInterfaces]

@[grind ←] theorem within_unsetDeviceMTU {deviceNames : List String} :
    Within (Edits cs born) (unsetDeviceMTU deviceNames) := by
  unfold unsetDeviceMTU
  refine within_bind (by grind) fun sections => within_bind (within_forM fun s => ?_) fun _ => ?_
  · grind
  · exact within_deleteSections hc

@[grind ←] theorem within_setInterfaceDevice {sectionName device : String} :
    Within (Edits cs born) (setInterfaceDevice sectionName device) := by
  grind [setInterfaceDevice]

@[grind ←] theorem within_appendBridgePort {bridgeSection port : String} :
    Within (Edits cs born) (appendBridgePort bridgeSection port) := by
  grind [appendBridgePort]

variable (hb : "network" ∈ born)
include hb

@[grind ←] theorem within_ensureInterface {sectionName what : String} :
    Within (Edits cs born) (ensureInterface sectionName what) := by
  grind [ensureInterface]

@[grind ←] theorem within_ensureUplinkInterface {sectionName proto : String} :
    Within (Edits cs born) (ensureUplinkInterface sectionName proto) := by
  grind [ensureUplinkInterface]

@[grind ←] theorem within_setupAhwlanInterface {ipaddr : String} :
    Within (Edits cs born) (setupAhwlanInterface ipaddr) := by
  grind [setupAhwlanInterface]

@[grind ←] theorem within_createBridgeDevice {name macaddr : String} {ports : List String} :
    Within (Edits cs born) (createBridgeDevice name ports macaddr) := by
  unfold createBridgeDevice
  split
  · exact within_fail
  · exact within_bind within_findBridgeBySectionName fun _ =>
      within_bind (within_onlyIf (within_saying (within_addSection hc hb))) fun _ =>
        within_bind (within_saying (within_setType hc)) fun _ =>
          within_bind (within_saying (within_setType hc)) fun _ =>
            within_bind (within_onlyIf (within_saying (within_setType hc))) fun _ =>
              within_bind (within_onlyIf (within_saying (within_setType hc))) fun _ =>
                within_pure _

@[grind ←] theorem within_setDeviceMTU {name : String} {mtu : Nat} :
    Within (Edits cs born) (setDeviceMTU name mtu) := by
  unfold setDeviceMTU
  split
  · exact within_fail
  · split
    · exact within_fail
    · refine within_bind within_findDeviceByName fun found => within_bind ?_ fun _ => ?_
      · grind
      · grind

@[grind ←] theorem within_setupBatmanDeviceOnNetwork {gwMode deviceName multicastMode : String} :
    Within (Edits cs born) (setupBatmanDeviceOnNetwork gwMode deviceName multicastMode) := by
  grind [setupBatmanDeviceOnNetwork]

@[grind ←] theorem within_setupBatmanInterfaceOnDevice {deviceName : String} :
    Within (Edits cs born) (setupBatmanInterfaceOnDevice deviceName) := by
  grind [setupBatmanInterfaceOnDevice]

end Interfaces

/-! ## Firewall -/

@[grind ←] theorem within_firstFree {taken : String → Prog Bool} {base : String}
    (ht : ∀ n, Within (Edits cs born) (taken n)) (tries i : Nat) :
    Within (Edits cs born) (firstFree taken base tries i) := by
  induction tries generalizing i with
  | zero => exact within_fail
  | succ tries ih =>
      refine within_bind (ht _) fun isTaken => ?_
      split
      · exact ih (i + 1)
      · exact within_pure _

@[grind ←] theorem within_zoneNameFor {networkID : String} :
    Within (Edits cs born) (zoneNameFor networkID) := by
  grind [zoneNameFor]

@[grind ←] theorem within_zoneSectionByName {name : String} :
    Within (Edits cs born) (zoneSectionByName name) := by
  grind [zoneSectionByName]

@[grind ←] theorem within_zoneNameOrSectionExists {name : String} :
    Within (Edits cs born) (zoneNameOrSectionExists name) := by
  grind [zoneNameOrSectionExists]

section Firewall

variable (hc : "firewall" ∈ cs)
include hc

@[grind ←] theorem within_removeAllRules : Within (Edits cs born) removeAllRules := by
  grind [removeAllRules]

@[grind ←] theorem within_whitelistAndDisableForwardings :
    Within (Edits cs born) whitelistAndDisableForwardings := by
  grind [whitelistAndDisableForwardings]

@[grind ←] theorem within_unsetMtuFixAndMasq : Within (Edits cs born) unsetMtuFixAndMasq := by
  grind [unsetMtuFixAndMasq]

@[grind ←] theorem within_setDestZoneNATOptions {dest : String} {natOnDest : Bool} :
    Within (Edits cs born) (setDestZoneNATOptions dest natOnDest) := by
  grind [setDestZoneNATOptions]

@[grind ←] theorem within_disableOtherForwardingsFromSrc {sections : List String} {src : String} :
    Within (Edits cs born) (disableOtherForwardingsFromSrc sections src) := by
  grind [disableOtherForwardingsFromSrc]

@[grind ←] theorem within_setZoneOption {zoneName key value : String} :
    Within (Edits cs born) (setZoneOption zoneName key value) := by
  grind [setZoneOption]

@[grind ←] theorem within_appendZoneNetwork {zoneName networkName : String} :
    Within (Edits cs born) (appendZoneNetwork zoneName networkName) := by
  grind [appendZoneNetwork]

variable (hb : "firewall" ∈ born)
include hb

@[grind ←] theorem within_getOrCreateZone {networkID : String} :
    Within (Edits cs born) (getOrCreateZone networkID) := by
  unfold getOrCreateZone
  split
  · exact within_fail
  · refine within_bind within_zoneNameFor fun zoneName => ?_
    split
    · exact within_pure _
    · refine within_bind within_tree fun t => within_bind ?_ fun proposedName => ?_
      · exact within_firstFree (fun _ => within_zoneNameOrSectionExists) _ _
      · grind

@[grind ←] theorem within_getOrCreateForwarding {src dest name : String} {natOnDest : Bool} :
    Within (Edits cs born) (getOrCreateForwarding src dest name natOnDest) := by
  unfold getOrCreateForwarding
  split
  · exact within_fail
  · refine within_bind (by grind) fun sections => within_bind (by grind) fun t => ?_
    split
    · exact within_pure _
    · refine within_bind (by grind) fun _ => within_bind (by grind) fun _ =>
        within_bind (by grind) fun t => ?_
      split
      · grind
      · grind

@[grind ←] theorem within_addDefaultWanFirewallRules {localZone : String} :
    Within (Edits cs born) (addDefaultWanFirewallRules localZone) := by
  grind [addDefaultWanFirewallRules, addAnonymousRule]

end Firewall

/-! ## DHCP -/

section Dhcp

variable (hc : "dhcp" ∈ cs)
include hc

@[grind ←] theorem within_whitelistAndIgnoreAllPools :
    Within (Edits cs born) whitelistAndIgnoreAllPools := by
  grind [whitelistAndIgnoreAllPools]

@[grind ←] theorem within_whitelistDnsmasqSurvivors :
    Within (Edits cs born) whitelistDnsmasqSurvivors := by
  unfold whitelistDnsmasqSurvivors
  refine within_bind (by grind) fun sections => within_bind (by grind) fun survivors => ?_
  grind [whitelistDnsmasqSurvivor]

@[grind ←] theorem within_backfill {sectionName option value : String} :
    Within (Edits cs born) (backfill sectionName option value) := by
  grind [backfill]

@[grind ←] theorem within_backfillPoolOptions {sectionName networkID : String}
    {extraOptions : List (String × List String)} {start : Nat} :
    Within (Edits cs born) (backfillPoolOptions sectionName networkID extraOptions start) := by
  unfold backfillPoolOptions
  refine within_bind (within_backfill hc) fun _ => within_bind (within_backfill hc) fun _ =>
    within_bind (within_backfill hc) fun _ => ?_
  grind

omit hc in
@[grind ←] theorem within_poolNameTaken {name : String} :
    Within (Edits cs born) (poolNameTaken name) := by
  grind [poolNameTaken]

variable (hb : "dhcp" ∈ born)
include hb

@[grind ←] theorem within_createDhcpPool {networkID : String}
    {extraOptions : List (String × List String)} {start : Nat} :
    Within (Edits cs born) (createDhcpPool networkID extraOptions start) := by
  grind [createDhcpPool]

@[grind ←] theorem within_getOrCreateDhcpPool {networkID : String}
    {extraOptions : List (String × List String)} {start : Nat} :
    Within (Edits cs born) (getOrCreateDhcpPool networkID extraOptions start) := by
  unfold getOrCreateDhcpPool
  split
  · exact within_fail
  · refine within_bind (by grind) fun sections => within_bind (by grind) fun t => ?_
    dsimp only
    split
    · exact within_bind (within_backfillPoolOptions hc) fun _ => within_pure _
    · split
      · grind
      · exact within_createDhcpPool hc hb

end Dhcp

/-! ## System, umdns and mesh11sd -/

@[grind ←] theorem within_firstSystemSection : Within (Edits cs born) firstSystemSection := by
  grind [firstSystemSection]

@[grind ←] theorem within_stageSystemHostname {hostname : String} (hc : "system" ∈ cs) :
    Within (Edits cs born) (stageSystemHostname hostname) := by
  grind [stageSystemHostname]

@[grind ←] theorem within_stageSystemTimezone {zonename posixTZ : String} (hc : "system" ∈ cs) :
    Within (Edits cs born) (stageSystemTimezone zonename posixTZ) := by
  grind [stageSystemTimezone]

@[grind ←] theorem within_stageUmdnsNetworks {networks : List String} (hc : "umdns" ∈ cs)
    (hb : "umdns" ∈ born) : Within (Edits cs born) (stageUmdnsNetworks networks) := by
  grind [stageUmdnsNetworks]

@[grind ←] theorem within_setMesh11sd {sectionName option value : String} (hc : "mesh11sd" ∈ cs) :
    Within (Edits cs born) (setMesh11sd sectionName option value) := by
  grind [setMesh11sd]

end Network

end OpenManet
