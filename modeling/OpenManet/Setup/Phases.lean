import OpenManet.Setup.Profile
/-!
# Setup phases

The bodies of the phases that edit the configs, from the wireless reset to
the mesh11sd flags. Each only stages its edits; the commit is a phase of its
own.
-/

namespace OpenManet

namespace Setup

open Uci Fallible Network

/-! ## Resets -/

/-- The radios and interfaces keep the listed options only, HaLow radios
keep mesh interfaces only, and every interface left is disabled. -/
def resetWireless : Prog Unit := do
  let devices ← saying "listing wifi-device sections" (getSections "wireless" "wifi-device")
  devices.forM fun dev => whitelistDeviceFields dev wizardWifiDeviceWhitelist
  removeNonMeshIfacesOnMorseDevices
  let ifaces ← saying "listing wifi-iface sections" (getSections "wireless" "wifi-iface")
  ifaces.forM fun iface => whitelistInterfaceFields iface wizardWifiIfaceWhitelist
  disableAllInterfaces

def defaultEthernetInterfaceName : String := "eth0"
def defaultBridgeInterfaceName : String := "br-ahwlan"
def defaultBridgeMTU : Nat := 1460
def defaultEthernetMTU : Nat := 1460

/-- The detected ports, or the platform's default one. -/
def Service.ethernetPorts (S : Service) : List String :=
  if S.collectEthernetPorts = [] then [defaultEthernetInterfaceName] else S.collectEthernetPorts

def Service.transportMTUDeviceNames (S : Service) : List String :=
  defaultBridgeInterfaceName :: S.ethernetPorts

def resetFirewall : Prog Unit := do
  removeAllRules
  whitelistAndDisableForwardings
  unsetMtuFixAndMasq

def resetDhcp : Prog Unit := do
  whitelistAndIgnoreAllPools
  whitelistDnsmasqSurvivors

def Service.resetInterfaces (S : Service) : Prog Unit := do
  removeAllBridgeDevices
  unsetDeviceMTU S.transportMTUDeviceNames
  removeAllBatadvInterfaces
  unsetGatewayAndDeviceOnInterfaces

def Service.resetNetwork (S : Service) : Prog Unit := do
  resetFirewall
  resetDhcp
  S.resetInterfaces

/-! ## System -/

/-- The hostname is staged through the setter, or written directly where
none is wired. -/
def Service.writeHostname (S : Service) (p : MeshNodeProfile) : Prog Unit :=
  if S.hostnameSetter then stageSystemHostname p.hostname
  else do
    match ← saying "listing system sections" (getSections "system" "system") with
    | s :: _ => setType "system" s "hostname" [p.hostname]
    | [] => fail "no system section found"

/-- The zone is staged; an empty one keeps the device's. -/
def Service.setTimezone (S : Service) (p : MeshNodeProfile) : Prog Unit :=
  if p.timezone = "" then pure ()
  else
    match S.posixTZ p.timezone with
    | none => fail ("unknown timezone " ++ quoted p.timezone)
    | some posix => stageSystemTimezone p.timezone posix

/-! ## Base network -/

inductive ScenarioKind where
  | meshGateRouterEth
  | meshGateRouterFirewallEth
  | meshGateRouterWifiSta
  | meshPointExtender
  | meshPointNone
deriving DecidableEq

def MeshRole.text : MeshRole → String
  | .unspecified => "MESH_ROLE_UNSPECIFIED"
  | .meshPoint => "MESH_ROLE_MESH_POINT"
  | .meshGate => "MESH_ROLE_MESH_GATE"
  | .unknown code => toString code

def classifyScenario (p : MeshNodeProfile) : Except String ScenarioKind :=
  match p.role, p.meshgateMode, p.uplinkType, p.meshpointMode with
  | .meshGate, .router, .ethernet, _ => .ok .meshGateRouterEth
  | .meshGate, .routerFirewall, .ethernet, _ => .ok .meshGateRouterFirewallEth
  | .meshGate, .router, .wirelessSta, _ => .ok .meshGateRouterWifiSta
  | .meshPoint, _, _, .extender => .ok .meshPointExtender
  | .meshPoint, _, _, .none => .ok .meshPointNone
  | role, _, _, _ => .error ("unsupported scenario for role=" ++ role.text)

/-- The scenario as part of a program. -/
def scenarioOf (p : MeshNodeProfile) : Prog ScenarioKind :=
  match classifyScenario p with
  | .ok scenario => pure scenario
  | .error text => fail text

/-- The port with the gate's upstream connection: the profile's choice, else
the first detected one, else the platform's. -/
def Service.resolveUplinkPort (S : Service) (p : MeshNodeProfile) : String :=
  match p.uplink with
  | some u => if u.ethernetPort = "" then S.ethernetPorts.headD "" else u.ethernetPort
  | none => S.ethernetPorts.headD ""

/-- The ports of the bridge: all of them, without the uplink where it is
one. -/
def Service.ethernetPortsForAhwlan (S : Service) (p : MeshNodeProfile) :
    ScenarioKind → List String
  | .meshGateRouterEth | .meshGateRouterFirewallEth =>
      S.ethernetPorts.filter (· ≠ S.resolveUplinkPort p)
  | _ => S.ethernetPorts

def stageTransportMTU (ethernetPorts : List String) : Prog Unit := do
  let _ ← saying ("stage " ++ defaultBridgeInterfaceName ++ " mtu")
    (setDeviceMTU defaultBridgeInterfaceName defaultBridgeMTU)
  ethernetPorts.forM fun port => do
    let _ ← saying ("stage " ++ port ++ " mtu") (setDeviceMTU port defaultEthernetMTU)
    pure ()

/-- The interface with the gate's upstream connection gets its port back. -/
def Service.applyScenarioUplinkBinding (S : Service) (p : MeshNodeProfile) :
    ScenarioKind → Prog Unit
  | .meshGateRouterEth => do
      saying "set lan.proto" (setInterfaceProto "lan" "dhcp")
      saying "bind uplink to lan" (setInterfaceDevice "lan" (S.resolveUplinkPort p))
      saying "ensureWan6" ensureWan6Interface
  | .meshGateRouterFirewallEth => do
      saying "ensureWan" ensureWanInterface
      saying "ensureWan6" ensureWan6Interface
      saying "bind uplink to wan" (setInterfaceDevice "wan" (S.resolveUplinkPort p))
      saying "bind uplink to wan6" (setInterfaceDevice "wan6" (S.resolveUplinkPort p))
  | .meshGateRouterWifiSta =>
      saying "set lan.proto for wifi-sta" (setInterfaceProto "lan" "dhcp")
  | .meshPointExtender | .meshPointNone => pure ()

/-- The address of a mesh point; a gate is given one at runtime. -/
def Service.ahwlanIPaddr (S : Service) (p : MeshNodeProfile) : Prog String :=
  if p.role = .meshPoint then
    match S.randomMeshIP with
    | some ip => pure ip
    | none => fail "generating mesh-point ahwlan IP: invalid base IP"
  else pure ""

def Service.baseNetwork (S : Service) (p : MeshNodeProfile) : Prog Unit := do
  let scenario ← scenarioOf p
  let ahwlanIPaddr ← S.ahwlanIPaddr p
  saying "setupAhwlanInterface" (setupAhwlanInterface ahwlanIPaddr)
  saying "stage umdns networks" (stageUmdnsNetworks ["lan", "ahwlan"])
  let ports := S.ethernetPortsForAhwlan p scenario
  let _ ← saying "createBridgeDevice br-ahwlan" (createBridgeDevice "br-ahwlan" ports S.randomMAC)
  stageTransportMTU ports
  saying "set lan.dns" (setInterfaceDNS "lan" "1.1.1.1")
  S.applyScenarioUplinkBinding p scenario

/-! ## Wireless -/

def bandwidthToHTMode : Nat → String
  | 1 => "1 MHz"
  | 2 => "2 MHz"
  | 4 => "4 MHz"
  | 8 => "8 MHz"
  | 20 => "HT20"
  | 40 => "HT40"
  | 80 => "VHT80"
  | 160 => "VHT160"
  | _ => ""

/-- The writes that carry a value. -/
def nonEmpty (writes : List (String × String)) : List (String × String) :=
  writes.filter fun w => w.2 ≠ ""

def meshDeviceWrites (mesh : MeshRadioConfig) : List (String × String) :=
  [("enable_mcast_whitelist", "0"), ("enable_mcast_rate_control", "1"), ("enable_ps", "0"),
    ("enable_dynamic_ps_offload", "0"), ("enable_twt", "0")]
    ++ (if 0 < mesh.channel then [("channel", Nat.repr mesh.channel)] else [])
    ++ nonEmpty [("htmode", bandwidthToHTMode mesh.bandwidthMhz),
      ("country", String.ofList (mesh.countryCode.toList.map Text.upperRune))]

def meshIfaceWrites (mesh : MeshRadioConfig) : List (String × String) :=
  [("device", mesh.radioName), ("mode", "mesh"), ("network", "batmesh0"),
    ("mesh_id", mesh.meshId), ("key", mesh.passphrase),
    ("encryption", meshEncryption mesh.encryption), ("beacon_int", "1000")]

def wirelessMesh (p : MeshNodeProfile) : Prog Unit :=
  match p.mesh with
  | none => fail "mesh radio config missing"
  | some mesh =>
      if mesh.radioName = "" then fail "mesh radio config missing"
      else do
        setOptions "wireless" mesh.radioName ("setting mesh device " ++ ·) (meshDeviceWrites mesh)
        let ifaceName := "default_" ++ mesh.radioName
        ignored (addSection "wireless" ifaceName "wifi-iface")
        setOptions "wireless" ifaceName ("setting mesh iface " ++ ·)
          (nonEmpty (meshIfaceWrites mesh))
        saying "clearing mesh iface disabled" (del "wireless" ifaceName "disabled")

def apBaseWrites (ap : RadioApProfile) : List (String × String) :=
  [("device", ap.radioName), ("mode", "ap"), ("network", "ahwlan")]

def apCredentialWrites (ap : RadioApProfile) : List (String × String) :=
  [("ssid", ap.ssid), ("key", ap.passphrase), ("encryption", protoToWifiEncryption ap.encryption)]

/-- The access point of a radio. A disabled one keeps its section but not
its credentials. -/
def writeAPIface (ap : RadioApProfile) : Prog Unit := do
  let ifaceName := "default_" ++ ap.radioName
  let what := fun option => "setting AP iface " ++ ifaceName ++ "." ++ option
  ignored (addSection "wireless" ifaceName "wifi-iface")
  setOptions "wireless" ifaceName what (apBaseWrites ap)
  if ap.enabled then do
    setOptions "wireless" ifaceName what (nonEmpty (apCredentialWrites ap))
    saying ("clearing AP iface " ++ ifaceName ++ ".disabled") (del "wireless" ifaceName "disabled")
  else do
    setOptions "wireless" ifaceName what [("disabled", "1")]
    ["ssid", "key", "encryption"].forM fun option =>
      saying ("clearing stale " ++ option ++ " on " ++ ifaceName) (del "wireless" ifaceName option)

def staIfaceWrites (w : WifiStaProfile) : List (String × String) :=
  [("device", w.radioName), ("mode", "sta"), ("network", "lan"), ("ssid", w.ssid),
    ("key", w.passphrase), ("encryption", protoToWifiEncryption w.encryption)]

def writeSTAIface (w : WifiStaProfile) : Prog Unit := do
  let ifaceName := "sta_" ++ w.radioName
  ignored (addSection "wireless" ifaceName "wifi-iface")
  setOptions "wireless" ifaceName (fun option => "setting STA iface " ++ ifaceName ++ "." ++ option)
    (nonEmpty (staIfaceWrites w))
  saying ("clearing STA iface " ++ ifaceName ++ ".disabled") (del "wireless" ifaceName "disabled")

/-- The section of a secondary mesh link. -/
def backhaulSection (radio : String) : String := batmanSecondaryIface ++ "_" ++ radio

def backhaulIfaceWrites (radio : String) (bh : MeshBackhaulProfile) : List (String × String) :=
  [("device", radio), ("network", batmanSecondaryIface), ("mode", "mesh"),
    ("mesh_id", bh.meshId), ("key", bh.passphrase), ("mesh_fwding", "0"),
    ("mesh_rssi_threshold", secondaryMeshRSSIThreshold), ("encryption", "sae")]
    ++ secondaryMeshPolicyOptions

def backhaulRadioWrites (bh : MeshBackhaulProfile) : List (String × String) :=
  [("channel", if 0 < bh.channel then Nat.repr bh.channel else secondaryMeshChannel2G),
    ("htmode", secondaryMeshHTMode bh.bandwidthMhz)]
    ++ nonEmpty [("country", bh.countryCode)]

def writeMeshBackhaulIface (radio : String) (bh : MeshBackhaulProfile) : Prog Unit := do
  let sectionName := backhaulSection radio
  ignored (addSection "wireless" sectionName "wifi-iface")
  setOptions "wireless" sectionName
    (fun option => "setting mesh backhaul iface " ++ sectionName ++ "." ++ option)
    (backhaulIfaceWrites radio bh)
  saying ("clearing mesh backhaul iface " ++ sectionName ++ ".disabled")
    (del "wireless" sectionName "disabled")
  setOptions "wireless" radio
    (fun option => "setting mesh backhaul radio " ++ radio ++ "." ++ option)
    (backhaulRadioWrites bh)
  saying ("clearing mesh backhaul radio " ++ radio ++ ".disabled") (del "wireless" radio "disabled")

/-- One entry of the profile: its access point, and its backhaul. -/
def writeRadio (ap : RadioApProfile) : Prog Unit := do
  writeAPIface ap
  match ap.meshBackhaul with
  | none => pure ()
  | some bh => writeMeshBackhaulIface ap.radioName bh

/-- The station of a wireless uplink. -/
def staOf (p : MeshNodeProfile) : Option WifiStaProfile :=
  match p.uplink with
  | some u => if u.type = .wirelessSta then u.wireless else none
  | none => none

def perRadioAPSta (p : MeshNodeProfile) : Prog Unit := do
  p.aps.forM writeRadio
  match staOf p with
  | some w => writeSTAIface w
  | none => pure ()

/-! ## Scenario topology -/

/-- Flags the daemon reads after the next boot. -/
def writeOpenmanetdFlags (p : MeshNodeProfile) : Prog Unit := do
  ignored (addSection "openmanetd" "config" "openmanet")
  let batmesh1 := if p.aps.any (·.meshBackhaul.isSome) then "1" else "0"
  setOptions "openmanetd" "config" ("stage openmanetd.config." ++ ·)
    [("dhcpconfigured", "0"), ("batmesh1configured", batmesh1)]

/-- LuCI's own wizard is marked used, and its landing page dropped. -/
def writeLuciBookkeeping : Prog Unit := do
  ignored (addSection "luci" "wizard" "wizard")
  saying "stage luci.wizard.used" (setType "luci" "wizard" "used" ["1"])
  match (← tree).get "luci" "main" "homepage" with
  | v :: _ =>
      if Text.trimSpace v.toList ∈ ["admin/morse/landing".toList, "admin/selectwizard".toList] then
        saying "delete luci.main.homepage" (del "luci" "main" "homepage")
      else pure ()
  | [] => pure ()

def writeWizardBookkeeping (p : MeshNodeProfile) : Prog Unit := do
  ignored (addSection "network" "wizard" "wizard")
  (nonEmpty [("device_mode_meshpoint", protoToMeshPointMode p.meshpointMode),
    ("device_mode_meshgate", protoToMeshGateMode p.meshgateMode),
    ("uplink", protoToUplinkType p.uplinkType)]).forM fun w => setType "network" "wizard" w.1 [w.2]
  writeOpenmanetdFlags p
  writeLuciBookkeeping

/-- A zone exists for the network, and clamps. -/
def ensureZone (networkID : String) : Prog Unit := do
  let _ ← saying ("ensuring " ++ networkID ++ " zone") (getOrCreateZone networkID)
  saying ("setting " ++ networkID ++ " mtu_fix") (setZoneOption networkID "mtu_fix" "1")

def Service.setupAhwlanDhcp (S : Service) : Prog Unit := do
  let _ ← saying "getOrCreateDhcpPool" (getOrCreateDhcpPool "ahwlan" [] S.randomDhcpStart)
  pure ()

def Service.setupLanDhcpNoUplink (S : Service) : Prog Unit := do
  let _ ← saying "getOrCreateDhcpPool lan"
    (getOrCreateDhcpPool "lan" [("dhcp_option", ["3", "6"])] S.randomDhcpStart)
  pure ()

def Service.scenarioMeshGateRouter (S : Service) (p : MeshNodeProfile) (upstreamZone : String) :
    Prog Unit := do
  ensureZone "ahwlan"
  let _ ← saying ("ensuring " ++ upstreamZone ++ " zone") (getOrCreateZone upstreamZone)
  onlyIf (upstreamZone = "wan") <|
    saying "adding wan6 to wan zone" (appendZoneNetwork "wan" "wan6")
  let _ ← saying "creating mmrouter forwarding"
    (getOrCreateForwarding "ahwlan" upstreamZone "mmrouter" true)
  onlyIf (upstreamZone = "lan") <|
    saying "setting lan masq" (setZoneOption "lan" "masq" "1")
  saying "setting lan mtu_fix" (setZoneOption "lan" "mtu_fix" "1")
  addDefaultWanFirewallRules "ahwlan"
  S.setupAhwlanDhcp
  writeWizardBookkeeping p

def Service.scenarioMeshPointExtender (S : Service) (p : MeshNodeProfile) : Prog Unit := do
  ensureZone "lan"
  ensureZone "ahwlan"
  let _ ← saying "creating mmextender forwarding"
    (getOrCreateForwarding "ahwlan" "lan" "mmextender" false)
  addDefaultWanFirewallRules "ahwlan"
  S.setupAhwlanDhcp
  writeWizardBookkeeping p

def Service.scenarioMeshPointNone (S : Service) (p : MeshNodeProfile) : Prog Unit := do
  saying "set ahwlan.proto=dhcp" (setInterfaceProto "ahwlan" "dhcp")
  saying "clear ahwlan.ipaddr" (del "network" "ahwlan" "ipaddr")
  ensureZone "ahwlan"
  ensureZone "lan"
  addDefaultWanFirewallRules "ahwlan"
  S.setupLanDhcpNoUplink
  writeWizardBookkeeping p

def Service.scenarioTopology (S : Service) (p : MeshNodeProfile) : Prog Unit := do
  match ← scenarioOf p with
  | .meshGateRouterEth => S.scenarioMeshGateRouter p "lan"
  | .meshGateRouterFirewallEth => S.scenarioMeshGateRouter p "wan"
  | .meshGateRouterWifiSta => S.scenarioMeshGateRouter p "lan"
  | .meshPointExtender => S.scenarioMeshPointExtender p
  | .meshPointNone => S.scenarioMeshPointNone p

/-! ## batman-adv and mesh11sd -/

def batmanGwModeForRole (role : MeshRole) : String :=
  if role = .meshGate then "server" else "client"

def Service.batmanAdv (S : Service) (p : MeshNodeProfile) : Prog Unit := do
  setupBatmanDeviceOnNetwork (batmanGwModeForRole p.role) batmanDeviceName
    (multicastModeForForceflood S.multicastForceflood)
  setupBatmanInterfaceOnDevice batmanDeviceName
  let bridgeSection ← saying "locating br-ahwlan" (findBridgeBySectionName "br-ahwlan")
  if bridgeSection = "" then
    fail "br-ahwlan bridge not found; phase 6 (BASE_NETWORK) must run first"
  else appendBridgePort bridgeSection batmanDeviceName

def mesh11sd (p : MeshNodeProfile) : Prog Unit := do
  setMeshFwding "0"
  setMeshNolearn "1"
  setMeshGateAnnouncements (protoToMeshRole p.role)
  setMesh11sdSetupEnabled "1"

end Setup

end OpenManet
