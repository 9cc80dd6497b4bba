import OpenManet.Lib.Uci.Tree
import OpenManet.Lib.Text
/-!
# The wireless config

The helpers that read and reset `wifi-device` and `wifi-iface` sections. A
HaLow radio is a `wifi-device` of type `morse`, and carries mesh interfaces
only.
-/

namespace OpenManet

namespace Network

open Uci

/-- Drops every option of a range that is not on the list, from one
section. `Get` reports the section, not the option, so every such option is
deleted; deleting one that is not set changes nothing. -/
def whitelistFields (config ref : String) (options allowList : List String) : Prog Unit :=
  options.forM fun option =>
    if option ∈ allowList then pure ()
    else do
      if (← tree).found config ref then
        saying ("deleting " ++ config ++ "." ++ ref ++ "." ++ option) (del config ref option)
      else pure ()

def allWifiDeviceOptions : List String :=
  ["type", "path", "band", "hwmode", "htmode", "reconf", "bcf", "country", "channel",
    "cell_density", "txpower", "enable_ps", "enable_dynamic_ps_offload", "enable_twt",
    "enable_mcast_whitelist", "enable_mcast_rate_control", "disabled"]

def allWifiIfaceOptions : List String :=
  ["device", "network", "mode", "key", "mesh_id", "mesh_fwding", "mesh_rssi_threshold",
    "encryption", "ssid", "beacon_int", "disabled", "mcast_rate", "mesh_nolearn",
    "mesh_retry_timeout", "mesh_confirm_timeout", "mesh_holding_timeout"]

def wizardWifiDeviceWhitelist : List String :=
  ["type", "path", "band", "hwmode", "htmode", "reconf", "bcf", "country", "channel",
    "cell_density", "txpower", "enable_ps", "enable_dynamic_ps_offload", "enable_twt"]

def wizardWifiIfaceWhitelist : List String :=
  ["network", "device", "key", "encryption", "mode", "ssid", "mesh_id"]

def whitelistDeviceFields (deviceName : String) (allowList : List String) : Prog Unit :=
  if deviceName = "" then fail "deviceName cannot be empty"
  else whitelistFields "wireless" deviceName allWifiDeviceOptions allowList

def whitelistInterfaceFields (ifaceName : String) (allowList : List String) : Prog Unit :=
  if ifaceName = "" then fail "ifaceName cannot be empty"
  else whitelistFields "wireless" ifaceName allWifiIfaceOptions allowList

def disableAllInterfaces : Prog Unit := do
  let sections ← saying "listing wifi-iface sections" (getSections "wireless" "wifi-iface")
  sections.forM fun s => saying ("disabling " ++ s) (setType "wireless" s "disabled" ["1"])

/-- The radio is a HaLow radio: its `type` is `morse`, in any case. -/
def isMorseDevice (t : Tree) (deviceName : String) : Bool :=
  match t.get "wireless" deviceName "type" with
  | type :: _ => Text.equalFold type "morse"
  | [] => false

/-- The interface sits on one of the radios, in a mode other than mesh. -/
def nonMeshOn (morse : List String) (t : Tree) (iface : String) : Bool :=
  match t.get "wireless" iface "device" with
  | dev :: _ => dev ∈ morse && (t.get "wireless" iface "mode").head? != some "mesh"
  | [] => false

/-- Deletes the interfaces that are not mesh from the HaLow radios. The
addresses are those listed before the first deletion. -/
def removeNonMeshIfacesOnMorseDevices : Prog Unit := do
  let devices ← saying "listing wifi-device sections" (getSections "wireless" "wifi-device")
  let t ← tree
  let morse := devices.filter (isMorseDevice t)
  if morse = [] then pure ()
  else do
    let ifaces ← saying "listing wifi-iface sections" (getSections "wireless" "wifi-iface")
    ifaces.forM fun iface => do
      if nonMeshOn morse (← tree) iface then
        saying ("deleting " ++ iface) (delSection "wireless" iface)
      else pure ()

/-! ## Mesh links -/

def batmanDeviceName : String := "bat0"
def batmanPrimaryIface : String := "batmesh0"
def batmanSecondaryIface : String := "batmesh1"

def secondaryMeshChannel2G : String := "8"
def secondaryMeshHTMode2G : String := "HE40"
def secondaryMeshRSSIThreshold : String := "-80"

/-- The tuning every secondary mesh link carries, in write order. -/
def secondaryMeshPolicyOptions : List (String × String) :=
  [("mcast_rate", "24000"), ("mesh_nolearn", "1"), ("mesh_retry_timeout", "255"),
    ("mesh_confirm_timeout", "255"), ("mesh_holding_timeout", "255")]

/-- The mode of the secondary link's radio for a width; 0 keeps the
default. -/
def secondaryMeshHTMode (bandwidthMHz : Nat) : String :=
  match bandwidthMHz with
  | 0 => secondaryMeshHTMode2G
  | 40 => secondaryMeshHTMode2G
  | 20 => "HE20"
  | _ => ""

/-- The chipsets the secondary link is run on. -/
def supportsSecondaryMeshLink (hardwareName : String) : Bool :=
  Text.contains hardwareName "MT7915" || Text.contains hardwareName "MT7916"

end Network

end OpenManet
