import OpenManet.Network.MeshLink
import OpenManet.Setup.Profile
/-!
# Radio settings

What the settings page asks of one radio, the words UCI has for it, and what
a request of it says of the radio's two sections, the `wifi-device` and the
`wifi-iface` linked to it.

Enumerations are open on the wire. A value this build does not know is
written as none, like the unspecified one.
-/

namespace OpenManet

namespace Wifi

open Uci Network
open Setup (WifiEncryption protoToWifiEncryption)

inductive WifiMode where
  | unspecified
  | ap
  | mesh
  | sta
  | adhoc
  | monitor
  | unknown (code : Int)
deriving DecidableEq

inductive WifiHTMode where
  | unspecified
  | noht
  | ht20
  | ht40Minus
  | ht40Plus
  | ht40
  | vht20
  | vht40
  | vht80
  | vht160
  | he20
  | he40
  | he80
  | he160
  | s1g1MHz
  | s1g2MHz
  | s1g4MHz
  | s1g8MHz
  | unknown (code : Int)
deriving DecidableEq

structure RadioSettings where
  ssid : String
  meshId : Option String
  password : Option String
  channel : String
  bandwidth : WifiHTMode
  txPower : Int
  country : Option String
  encryption : WifiEncryption
  disabled : Option Bool
  mode : WifiMode
  meshRssiThreshold : Option Int
deriving DecidableEq

namespace RadioSettings

def getMeshId (st : RadioSettings) : String := st.meshId.getD ""
def getPassword (st : RadioSettings) : String := st.password.getD ""
def getCountry (st : RadioSettings) : String := st.country.getD ""

end RadioSettings

/-! ## The words of UCI -/

/-- `strings.ToLower`, as far as it meets the ASCII letters. -/
def toLower (s : String) : String :=
  String.ofList (s.toList.map fun c =>
    if c = '\u212A' then 'k' else if c = '\u0130' then 'i' else Text.lowerRune c)

/-- `strings.ToUpper`, as far as it meets the ASCII letters. -/
def toUpper (s : String) : String :=
  String.ofList (s.toList.map fun c =>
    if c = '\u017f' then 'S' else if c = '\u0131' then 'I' else Text.upperRune c)

/-- Empty for a mode that is to be left as it is. -/
def protoToWifiMode : WifiMode → String
  | .ap => "ap"
  | .mesh => "mesh"
  | .sta => "sta"
  | .adhoc => "adhoc"
  | .monitor => "monitor"
  | _ => ""

def wifiModeToProto (s : String) : WifiMode :=
  let l := toLower s
  if l ∈ ["ap", "master"] then .ap
  else if l ∈ ["mesh", "mesh point"] then .mesh
  else if l ∈ ["sta", "client", "managed"] then .sta
  else if l ∈ ["adhoc", "ad-hoc", "ibss"] then .adhoc
  else if l = "monitor" then .monitor
  else .unspecified

def wifiEncryptionToProto (s : String) : WifiEncryption :=
  let l := toLower s
  if l = "sae" then .sae
  else if l = "psk2" then .psk2
  else if l = "psk" then .psk
  else if l = "psk-mixed" then .pskMixed
  else if l = "sae-mixed" then .saeMixed
  else if l = "none" then .none
  else if l = "owe" then .owe
  else .unspecified

def protoToWifiHTMode : WifiHTMode → String
  | .noht => "NOHT"
  | .ht20 => "HT20"
  | .ht40Minus => "HT40-"
  | .ht40Plus => "HT40+"
  | .ht40 => "HT40"
  | .vht20 => "VHT20"
  | .vht40 => "VHT40"
  | .vht80 => "VHT80"
  | .vht160 => "VHT160"
  | .he20 => "HE20"
  | .he40 => "HE40"
  | .he80 => "HE80"
  | .he160 => "HE160"
  | .s1g1MHz => "1 MHz"
  | .s1g2MHz => "2 MHz"
  | .s1g4MHz => "4 MHz"
  | .s1g8MHz => "8 MHz"
  | _ => ""

/-- The names of the modes, in capitals. -/
def htModeNames : List (String × WifiHTMode) :=
  [("NOHT", .noht), ("HT20", .ht20), ("HT40-", .ht40Minus), ("HT40+", .ht40Plus), ("HT40", .ht40),
    ("VHT20", .vht20), ("VHT40", .vht40), ("VHT80", .vht80), ("VHT160", .vht160),
    ("HE20", .he20), ("HE40", .he40), ("HE80", .he80), ("HE160", .he160)]

/-- The widths of HaLow radios, in small letters. -/
def s1gModeNames : List (String × WifiHTMode) :=
  [("1 mhz", .s1g1MHz), ("2 mhz", .s1g2MHz), ("4 mhz", .s1g4MHz), ("8 mhz", .s1g8MHz)]

def wifiHTModeToProto (s : String) : WifiHTMode :=
  match htModeNames.lookup (toUpper s) with
  | some m => m
  | none => (s1gModeNames.lookup (toLower s)).getD .unspecified

/-! ## What is written -/

def wirelessConfig : String := "wireless"
def wifiNetworkAhwlan : String := "ahwlan"

/-- The device options of a request. A power of 0 leaves the option as it
is. -/
def RadioSettings.devCfg (st : RadioSettings) : UCIWirelessDevice where
  channel := st.channel
  txPower := if 0 < st.txPower then toString st.txPower else ""
  htMode := protoToWifiHTMode st.bandwidth
  country := st.getCountry

/-- What a request writes to the device section, in write order. -/
def RadioSettings.deviceWrites (st : RadioSettings) : List (String × String) :=
  written (deviceOptionFields st.devCfg)

/-- Empty when the flag was not sent. -/
def ifaceDisabledValue (st : RadioSettings) : String :=
  match st.disabled with
  | none => ""
  | some true => "1"
  | some false => "0"

/-- The options that mean something on a mesh section only. -/
def meshOnlyOptions : List String :=
  ["mesh_fwding", "mesh_rssi_threshold"] ++ secondaryMeshPolicyOptions.map Prod.fst

/-! ## What is read -/

/-- `strconv.ParseInt` in base ten, for what 32 bits hold. -/
def parseInt32 (s : String) : Option Int :=
  let (negative, digits) : Bool × List Char :=
    match s.toList with
    | '-' :: rest => (true, rest)
    | '+' :: rest => (false, rest)
    | rest => (false, rest)
  if digits = [] ∨ digits.any (fun c => c < '0' ∨ '9' < c) then none
  else
    let n : Int := Nat.ofDigitChars 10 digits 0
    let v := if negative then -n else n
    if -2147483648 ≤ v ∧ v < 2147483648 then some v else none

/-- A listing of the sections of a type. The config is in memory or is read
on the first call for it, which is all that can fail. -/
def listing (t : Tree) (config type : String) : Except Err (List String) :=
  match t.mem config with
  | some c => .ok (c.refs type)
  | none => .error (missingConfig config)

/-- The first interface of a radio, empty when there is none. -/
def findLinkedIface (deviceName : String) (ifaceSections : List String) (t : Tree) : String :=
  (ifaceSections.find? fun sec =>
    (t.get wirelessConfig sec "device").head? == some deviceName).getD ""

def batmanInterfaceExists (t : Tree) (name : String) : Bool :=
  match listing t "network" "interface" with
  | .ok sections => sections.contains name
  | .error _ => false

/-- A batman-adv device of that name is configured. -/
def batmanDeviceExists (t : Tree) (name : String) : Bool :=
  batmanInterfaceExists t name && (t.get "network" name "proto").head? == some "batadv"

/-- The first of the two hardif networks no interface but this one is bound
to. -/
def findUnusedBatmesh (t : Tree) (excludeIface : String) : Except String String :=
  match listing t wirelessConfig "wifi-iface" with
  | .error e => .error ("list wifi-iface sections: " ++ e.text)
  | .ok sections =>
      let inUse := (sections.filter (· ≠ excludeIface)).filterMap fun sec =>
        (t.get wirelessConfig sec "network").head?
      match [batmanPrimaryIface, batmanSecondaryIface].find? fun name => !inUse.contains name with
      | some name => .ok name
      | none => .error "no available batmesh network (all in use)"

end Wifi

end OpenManet
