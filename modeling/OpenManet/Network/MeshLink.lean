import OpenManet.Network.Wireless
/-!
# Reading and writing wireless sections

A `wifi-iface` or a `wifi-device` read into a record and written from one.
Options that are not set read as empty, and empty fields are not written.
-/

namespace OpenManet

namespace Network

open Uci Fallible

/-- The first value of an option, empty when there is none. -/
def firstOf (c : Uci.Config) (ref option : String) : String := (c.get ref option).head?.getD ""

/-- A `wifi-device`. -/
structure UCIWirelessDevice where
  type : String := ""
  path : String := ""
  band : String := ""
  channel : String := ""
  htMode : String := ""
  country : String := ""
  cellDensity : String := ""
  hwMode : String := ""
  reconf : String := ""
  enableMcastWhitelist : String := ""
  enableMcastRateControl : String := ""
  enablePS : String := ""
  enableDynamicPSOffload : String := ""
  enableTWT : String := ""
  bcf : String := ""
  txPower : String := ""
  disabled : String := ""

/-- A `wifi-iface`. -/
structure UCIWirelessIface where
  device : String := ""
  network : String := ""
  mode : String := ""
  key : String := ""
  meshID : String := ""
  meshFwding : String := ""
  meshRSSIThreshold : String := ""
  encryption : String := ""
  ssid : String := ""
  beaconInt : String := ""
  disabled : String := ""
  mcastRate : String := ""
  meshNolearn : String := ""
  meshRetryTimeout : String := ""
  meshConfirmTimeout : String := ""
  meshHoldingTimeout : String := ""

def getWirelessDeviceByName (c : Uci.Config) (name : String) : UCIWirelessDevice where
  type := firstOf c name "type"
  path := firstOf c name "path"
  band := firstOf c name "band"
  channel := firstOf c name "channel"
  htMode := firstOf c name "htmode"
  country := firstOf c name "country"
  cellDensity := firstOf c name "cell_density"
  hwMode := firstOf c name "hwmode"
  reconf := firstOf c name "reconf"
  enableMcastWhitelist := firstOf c name "enable_mcast_whitelist"
  enableMcastRateControl := firstOf c name "enable_mcast_rate_control"
  enablePS := firstOf c name "enable_ps"
  enableDynamicPSOffload := firstOf c name "enable_dynamic_ps_offload"
  enableTWT := firstOf c name "enable_twt"
  bcf := firstOf c name "bcf"
  txPower := firstOf c name "txpower"
  disabled := firstOf c name "disabled"

def getWirelessIfaceByName (c : Uci.Config) (name : String) : UCIWirelessIface where
  device := firstOf c name "device"
  network := firstOf c name "network"
  mode := firstOf c name "mode"
  key := firstOf c name "key"
  meshID := firstOf c name "mesh_id"
  meshFwding := firstOf c name "mesh_fwding"
  meshRSSIThreshold := firstOf c name "mesh_rssi_threshold"
  encryption := firstOf c name "encryption"
  ssid := firstOf c name "ssid"
  beaconInt := firstOf c name "beacon_int"
  disabled := firstOf c name "disabled"
  mcastRate := firstOf c name "mcast_rate"
  meshNolearn := firstOf c name "mesh_nolearn"
  meshRetryTimeout := firstOf c name "mesh_retry_timeout"
  meshConfirmTimeout := firstOf c name "mesh_confirm_timeout"
  meshHoldingTimeout := firstOf c name "mesh_holding_timeout"

/-- The options of a `wifi-device` with their values, in write order. -/
def deviceOptionFields (cfg : UCIWirelessDevice) : List (String × String) :=
  [("type", cfg.type), ("path", cfg.path), ("band", cfg.band), ("channel", cfg.channel),
    ("htmode", cfg.htMode), ("country", cfg.country), ("cell_density", cfg.cellDensity),
    ("hwmode", cfg.hwMode), ("reconf", cfg.reconf),
    ("enable_mcast_whitelist", cfg.enableMcastWhitelist),
    ("enable_mcast_rate_control", cfg.enableMcastRateControl), ("enable_ps", cfg.enablePS),
    ("enable_dynamic_ps_offload", cfg.enableDynamicPSOffload), ("enable_twt", cfg.enableTWT),
    ("bcf", cfg.bcf), ("txpower", cfg.txPower), ("disabled", cfg.disabled)]

/-- The options of a `wifi-iface` with their values, in write order. -/
def ifaceOptionFields (cfg : UCIWirelessIface) : List (String × String) :=
  [("device", cfg.device), ("network", cfg.network), ("mode", cfg.mode), ("key", cfg.key),
    ("mesh_id", cfg.meshID), ("mesh_fwding", cfg.meshFwding),
    ("mesh_rssi_threshold", cfg.meshRSSIThreshold), ("encryption", cfg.encryption),
    ("ssid", cfg.ssid), ("beacon_int", cfg.beaconInt), ("disabled", cfg.disabled),
    ("mcast_rate", cfg.mcastRate), ("mesh_nolearn", cfg.meshNolearn),
    ("mesh_retry_timeout", cfg.meshRetryTimeout), ("mesh_confirm_timeout", cfg.meshConfirmTimeout),
    ("mesh_holding_timeout", cfg.meshHoldingTimeout)]

/-- The fields that are written. -/
def written (fields : List (String × String)) : List (String × String) :=
  fields.filter fun w => w.2 ≠ ""

def failedToSet (option : String) : String := "failed to set " ++ option

/-- Writes one section of the wireless config and commits. A section that
cannot be added is not reported. -/
def setWirelessConfig (name type : String) (fields : List (String × String)) : Prog Unit := do
  ignored (addSection "wireless" name type)
  setOptions "wireless" name failedToSet (written fields)
  saying "failed to commit wireless config" commit

def setWirelessDeviceConfig (name : String) (cfg : UCIWirelessDevice) : Prog Unit :=
  setWirelessConfig name "wifi-device" (deviceOptionFields cfg)

def setWirelessIfaceConfig (name : String) (cfg : UCIWirelessIface) : Prog Unit :=
  setWirelessConfig name "wifi-iface" (ifaceOptionFields cfg)

/-! ## Mesh links -/

def wifiModeMesh : String := "mesh"

/-- A mesh interface bound to a batman-adv hardif. -/
structure MeshLink where
  radio : String
  network : String
  meshID : String
  key : String
  rssiThreshold : String

/-- The section of the link. -/
def MeshLink.section (l : MeshLink) : String := l.network ++ "_" ++ l.radio

/-- The tuning of the secondary link. -/
def UCIWirelessIface.applySecondaryMeshPolicy (cfg : UCIWirelessIface) : UCIWirelessIface :=
  { cfg with
    mcastRate := "24000"
    meshNolearn := "1"
    meshRetryTimeout := "255"
    meshConfirmTimeout := "255"
    meshHoldingTimeout := "255" }

def MeshLink.ifaceConfig (l : MeshLink) : UCIWirelessIface :=
  let cfg : UCIWirelessIface :=
    { device := l.radio
      network := l.network
      mode := wifiModeMesh
      meshID := l.meshID
      key := l.key
      meshFwding := "0"
      meshRSSIThreshold := l.rssiThreshold
      encryption := "sae" }
  if l.network = batmanSecondaryIface then cfg.applySecondaryMeshPolicy else cfg

end Network

end OpenManet
