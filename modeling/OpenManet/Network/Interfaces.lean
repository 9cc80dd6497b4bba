import OpenManet.Network.Wireless
/-!
# The network config

The helpers that reset and rebuild `interface` and `device` sections: the
bridges, the batman-adv device and its hard interfaces, the uplink bindings
and the device MTUs.

A walk that deletes as it goes keeps the addresses it listed before the
first deletion. For a named section that is no matter; an anonymous one is
addressed by its place, and has moved.
-/

namespace OpenManet

namespace Network

open Uci Fallible

/-- An interface section of that name exists. A listing that fails counts as
no. -/
def batmanInterfaceExists (name : String) : Prog Bool := do
  match ← attempt (getSections "network" "interface") with
  | .ok sections => pure (sections.contains name)
  | .error _ => pure false

/-- An interface section, created when it is not there. -/
def ensureInterface (sectionName : String) (what : String) : Prog Unit := do
  if ← batmanInterfaceExists sectionName then pure ()
  else saying ("creating " ++ what) (addSection "network" sectionName "interface")

/-- Deletes the sections of a type that a test on the current tree selects,
walking the addresses in listing order. -/
def deleteSections (config type what : String) (doomed : Tree → String → Bool) : Prog Unit := do
  let sections ← saying what (getSections config type)
  sections.forM fun s => do
    if doomed (← tree) s then saying ("deleting " ++ s) (delSection config s)
    else pure ()

def isBatadv (t : Tree) (s : String) : Bool :=
  match t.get "network" s "proto" with
  | proto :: _ => proto == "batadv" || proto == "batadv_hardif"
  | [] => false

def removeAllBatadvInterfaces : Prog Unit :=
  deleteSections "network" "interface" "listing network interfaces" isBatadv

def isBridge (t : Tree) (s : String) : Bool := (t.get "network" s "type").head? == some "bridge"

def removeAllBridgeDevices : Prog Unit :=
  deleteSections "network" "device" "listing network devices" isBridge

def unsetGatewayAndDeviceOnInterfaces : Prog Unit := do
  let sections ← saying "listing network interfaces" (getSections "network" "interface")
  sections.forM fun s => do
    -- the loopback keeps its device
    if ((← tree).get "network" s "device").head? = some "lo" then pure ()
    else do
      saying ("unsetting gateway on " ++ s) (del "network" s "gateway")
      saying ("unsetting device on " ++ s) (del "network" s "device")

/-! ## Devices -/

/-- The bridge of that name, empty when there is none. -/
def findBridgeBySectionName (bridgeName : String) : Prog String := do
  let sections ← saying "listing network devices" (getSections "network" "device")
  let t ← tree
  pure ((sections.find? fun s =>
    isBridge t s && (t.get "network" s "name").head? == some bridgeName).getD "")

/-- The device section of that name, whatever its type. -/
def findDeviceByName (name : String) : Prog String := do
  let sections ← saying "listing network devices" (getSections "network" "device")
  let t ← tree
  pure ((sections.find? fun s => (t.get "network" s "name").head? == some name).getD "")

/-- A string made a section name: everything but letters, digits and
underscores becomes an underscore. -/
def sanitizeUCIName (s : String) : String :=
  String.ofList (s.toUTF8.toList.map fun b =>
    let c := Char.ofNat b.toNat
    if ('a' ≤ c ∧ c ≤ 'z') ∨ ('A' ≤ c ∧ c ≤ 'Z') ∨ ('0' ≤ c ∧ c ≤ '9') ∨ c = '_' then c else '_')

def createBridgeDevice (name : String) (ports : List String) (macaddr : String) : Prog String :=
  if name = "" then fail "bridge name cannot be empty"
  else do
    let existing ← findBridgeBySectionName name
    let sectionName := if existing = "" then "wizard_bridge_" ++ sanitizeUCIName name else existing
    onlyIf (existing = "") <|
      saying "creating bridge device section" (addSection "network" sectionName "device")
    saying "setting bridge name" (setType "network" sectionName "name" [name])
    saying "setting bridge type" (setType "network" sectionName "type" ["bridge"])
    onlyIf (macaddr ≠ "") <|
      saying "setting bridge macaddr" (setType "network" sectionName "macaddr" [macaddr])
    -- an empty list leaves the option as it is
    onlyIf (ports ≠ []) <|
      saying "setting bridge ports" (setType "network" sectionName "ports" ports)
    pure sectionName

def appendBridgePort (bridgeSection port : String) : Prog Unit :=
  if bridgeSection = "" then fail "bridge section cannot be empty"
  else if port = "" then fail "port cannot be empty"
  else do
    let existing := (← tree).get "network" bridgeSection "ports"
    if port ∈ existing then pure ()
    else setType "network" bridgeSection "ports" (existing ++ [port])

def wizardDeviceSectionPrefix : String := "wizard_device_"

/-- netifd's floor for a device MTU. -/
def minDeviceMTU : Nat := 68

def setDeviceMTU (name : String) (mtu : Nat) : Prog String :=
  if name = "" then fail "device name cannot be empty"
  else if mtu < minDeviceMTU then
    fail ("mtu " ++ Nat.repr mtu ++ " is below netifd's minimum of " ++ Nat.repr minDeviceMTU)
  else do
    let found ← findDeviceByName name
    let sectionName :=
      if found = "" then wizardDeviceSectionPrefix ++ sanitizeUCIName name else found
    onlyIf (found = "") do
      saying ("creating device section " ++ sectionName) (addSection "network" sectionName "device")
      saying ("setting name on " ++ sectionName) (setType "network" sectionName "name" [name])
    saying ("setting mtu on " ++ sectionName) (setType "network" sectionName "mtu" [Nat.repr mtu])
    pure sectionName

/-- Strips the MTU from the managed devices, then deletes the sections the
wizard made for one. The second walk deletes named sections only. -/
def unsetDeviceMTU (deviceNames : List String) : Prog Unit := do
  let sections ← saying "listing network devices" (getSections "network" "device")
  sections.forM fun s => do
    if Text.hasPrefix s wizardDeviceSectionPrefix then pure ()
    else
      match (← tree).get "network" s "name" with
      | name :: _ =>
          if name ∈ deviceNames then saying ("unsetting mtu on " ++ s) (del "network" s "mtu")
          else pure ()
      | [] => pure ()
  deleteSections "network" "device" "listing network devices"
    fun _ s => Text.hasPrefix s wizardDeviceSectionPrefix

/-! ## Interfaces -/

def setInterfaceProto (sectionName proto : String) : Prog Unit :=
  setType "network" sectionName "proto" [proto]

def setInterfaceDNS (sectionName dns : String) : Prog Unit :=
  setType "network" sectionName "dns" [dns]

def setInterfaceDevice (sectionName device : String) : Prog Unit :=
  if sectionName = "" ∨ device = "" then fail "section and device are required"
  else saying ("setting network." ++ sectionName ++ ".device")
    (setType "network" sectionName "device" [device])

/-- An uplink interface that asks for its address, created when it is not
there. -/
def ensureUplinkInterface (sectionName proto : String) : Prog Unit := do
  ensureInterface sectionName sectionName
  setType "network" sectionName "proto" [proto]

def ensureWanInterface : Prog Unit := ensureUplinkInterface "wan" "dhcp"

def ensureWan6Interface : Prog Unit := ensureUplinkInterface "wan6" "dhcpv6"

def setupAhwlanInterface (ipaddr : String) : Prog Unit := do
  ensureInterface "ahwlan" "ahwlan interface"
  setOptions "network" "ahwlan" (setting "network" "ahwlan")
    [("proto", "static"), ("netmask", "255.255.0.0"), ("ip6assign", "64"),
      ("ip6ifaceid", "eui64"), ("device", "br-ahwlan")]
  saying "setting network.ahwlan.ip6class" (setType "network" "ahwlan" "ip6class" ["local"])
  if ipaddr = "" then pure ()
  else do
    saying "setting network.ahwlan.ipaddr" (setType "network" "ahwlan" "ipaddr" [ipaddr])
    saying "setting network.ahwlan.dns" (setType "network" "ahwlan" "dns" ["1.1.1.1"])

/-! ## batman-adv -/

def batmanDeviceOptions : List (String × String) :=
  [("proto", "batadv"), ("routing_algo", "BATMAN_V"), ("bridge_loop_avoidance", "1"),
    ("hop_penalty", "30"), ("bonding", "1"), ("aggregated_ogms", "1"), ("ap_isolation", "0"),
    ("fragmentation", "1"), ("orig_interval", "1000"), ("distributed_arp_table", "1"),
    ("network_coding", "1"), ("isolation_mark", "0x00000000/0x00000000")]

def multicastModeForForceflood (forceflood : Bool) : String := if forceflood then "0" else "1"

def setupBatmanDeviceOnNetwork (gwMode deviceName multicastMode : String) : Prog Unit := do
  let deviceName := if deviceName = "" then batmanDeviceName else deviceName
  let gwMode := if gwMode = "" then "client" else gwMode
  let multicastMode := if multicastMode = "" then "0" else multicastMode
  ensureInterface deviceName ("batman device " ++ deviceName)
  setOptions "network" deviceName (setting "network" deviceName)
    ([("gw_mode", gwMode), ("multicast_mode", multicastMode)] ++ batmanDeviceOptions)

def setupBatmanInterfaceOnDevice (deviceName : String) : Prog Unit := do
  let deviceName := if deviceName = "" then batmanDeviceName else deviceName
  [batmanPrimaryIface, batmanSecondaryIface].forM fun ifaceName => do
    ensureInterface ifaceName ifaceName
    setOptions "network" ifaceName (fun option => "setting " ++ ifaceName ++ "." ++ option)
      [("proto", "batadv_hardif"), ("master", deviceName)]

end Network

end OpenManet
