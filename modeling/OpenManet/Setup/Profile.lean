import OpenManet.Network.Services
/-!
# Setup profiles

What the setup wizard is asked to apply, and the checks of its first phase.
Enumerations are open on the wire: a value this build does not know arrives
as its number.

The checks read the wireless config through single options, which cannot
fail; only the inventory behind the mesh backhaul lists sections.
-/

namespace OpenManet

namespace Setup

open Uci Fallible Network

inductive MeshRole where
  | unspecified
  | meshPoint
  | meshGate
  | unknown (code : Int)
deriving DecidableEq

inductive MeshPointMode where
  | unspecified
  | none
  | extender
  | unknown (code : Int)
deriving DecidableEq

inductive MeshGateMode where
  | unspecified
  | router
  | routerFirewall
  | unknown (code : Int)
deriving DecidableEq

inductive UplinkType where
  | unspecified
  | ethernet
  | wirelessSta
  | unknown (code : Int)
deriving DecidableEq

inductive WifiEncryption where
  | unspecified
  | sae
  | psk2
  | psk
  | pskMixed
  | none
  | owe
  | saeMixed
  | unknown (code : Int)
deriving DecidableEq

/-- The mode of the device, one of two fields. -/
inductive DeviceMode where
  | unset
  | meshpoint (mode : MeshPointMode)
  | meshgate (mode : MeshGateMode)
deriving DecidableEq

structure MeshRadioConfig where
  radioName : String
  meshId : String
  passphrase : String
  encryption : WifiEncryption
  bandwidthMhz : Nat
  channel : Nat
  countryCode : String
deriving DecidableEq

structure WifiStaProfile where
  radioName : String
  ssid : String
  passphrase : String
  encryption : WifiEncryption
deriving DecidableEq

structure MeshBackhaulProfile where
  meshId : String
  passphrase : String
  bandwidthMhz : Nat
  channel : Nat
  countryCode : String
deriving DecidableEq

structure RadioApProfile where
  radioName : String
  enabled : Bool
  ssid : String
  passphrase : String
  encryption : WifiEncryption
  meshBackhaul : Option MeshBackhaulProfile
deriving DecidableEq

structure Uplink where
  type : UplinkType
  ethernetPort : String
  wireless : Option WifiStaProfile
deriving DecidableEq

structure MeshNodeProfile where
  hostname : String
  adminPassword : String
  role : MeshRole
  deviceMode : DeviceMode
  mesh : Option MeshRadioConfig
  uplink : Option Uplink
  aps : List RadioApProfile
  timezone : String
deriving DecidableEq

namespace MeshNodeProfile

def meshpointMode (p : MeshNodeProfile) : MeshPointMode :=
  match p.deviceMode with
  | .meshpoint m => m
  | _ => .unspecified

def meshgateMode (p : MeshNodeProfile) : MeshGateMode :=
  match p.deviceMode with
  | .meshgate m => m
  | _ => .unspecified

def uplinkType (p : MeshNodeProfile) : UplinkType :=
  match p.uplink with
  | some u => u.type
  | none => .unspecified

end MeshNodeProfile

/-! ## The values written for them -/

def protoToMeshRole : MeshRole → String
  | .meshPoint => "0"
  | .meshGate => "1"
  | _ => ""

def protoToMeshPointMode : MeshPointMode → String
  | .none => "none"
  | .extender => "extender"
  | _ => ""

def protoToMeshGateMode : MeshGateMode → String
  | .router => "router"
  | .routerFirewall => "router_firewall"
  | _ => ""

def protoToUplinkType : UplinkType → String
  | .ethernet => "ethernet"
  | .wirelessSta => "wifi-sta"
  | _ => ""

def protoToWifiEncryption : WifiEncryption → String
  | .sae => "sae"
  | .psk2 => "psk2"
  | .psk => "psk"
  | .pskMixed => "psk-mixed"
  | .saeMixed => "sae-mixed"
  | .none => "none"
  | .owe => "owe"
  | _ => ""

/-- A mesh is never left to an encryption it did not ask for. -/
def meshEncryption (e : WifiEncryption) : String :=
  if protoToWifiEncryption e = "" then "sae" else protoToWifiEncryption e

/-! ## The service -/

/-- The regulatory database. -/
inductive RegDB where
  | notInstalled
  | broken (text : String)
  | installed (isLegalChannel : String → Nat → Nat → Bool)

/-- What the service is wired with, and what it finds on the device. -/
structure Service where
  /-- A snapshotter is wired. -/
  snapshotter : Bool
  /-- A service reloader is wired. -/
  reloader : Bool
  /-- A password setter is wired. -/
  passwordSetter : Bool
  /-- The hostname goes through the hostname setter. -/
  hostnameSetter : Bool
  /-- The names of the interfaces the device lists. -/
  interfaces : List String
  /-- The hardware name of a radio's live interface. -/
  radioHardware : String → Option String
  regDB : RegDB
  /-- The zone table. -/
  posixTZ : String → Option String
  multicastForceflood : Bool
  /-- The draws of the random source: a MAC, an address in the mesh subnet
  where its base is one, and the offset of a pool. -/
  randomMAC : String
  randomMeshIP : Option String
  randomDhcpStart : Nat

/-- The device names that look like ethernet ports. -/
def isLikelyEthernetPort (name : String) : Bool :=
  if name = "" then false
  else if ["wlan", "wlh", "br", "bat", "lo", "tun", "tap", "vxlan", "tailscale"].any
      (Text.hasPrefix name) then false
  else ["eth", "lan", "en", "wan"].any (Text.hasPrefix name)

def Service.collectEthernetPorts (S : Service) : List String :=
  S.interfaces.filter isLikelyEthernetPort

/-- One radio of the inventory. -/
structure SetupRadio where
  name : String
  band : String
  hardwareName : String
  isHalow : Bool
  supportsMeshBackhaul : Bool

/-- The first value of an option, empty when there is none. -/
def firstValue (t : Tree) (config ref option : String) : String :=
  (t.get config ref option).head?.getD ""

def isSecondaryMeshCandidate (t : Tree) (name : String) : Bool :=
  firstValue t "wireless" name "band" = "2g"
    && !Text.equalFold (firstValue t "wireless" name "type") "morse"

/-- The inventory entry of a radio. The hardware is looked up only where
some radio could carry the secondary link. -/
def Service.setupRadio (S : Service) (t : Tree) (anyCandidate : Bool) (name : String) :
    SetupRadio where
  name := name
  band := firstValue t "wireless" name "band"
  hardwareName :=
    match anyCandidate, S.radioHardware name with
    | true, some hw => hw
    | _, _ => firstValue t "wireless" name "path"
  isHalow := Text.equalFold (firstValue t "wireless" name "type") "morse"
  supportsMeshBackhaul :=
    match S.radioHardware name with
    | some hw => isSecondaryMeshCandidate t name && supportsSecondaryMeshLink hw
    | none => false

/-- The inventory; empty when the radios cannot be listed. -/
def Service.collectSetupRadios (S : Service) : Prog (List SetupRadio) := do
  match ← attempt (getSections "wireless" "wifi-device") with
  | .error _ => pure []
  | .ok names => do
      let t ← tree
      pure (names.map (S.setupRadio t (names.any (isSecondaryMeshCandidate t))))

/-! ## Validation -/

def isAlnum (c : Char) : Bool :=
  ('a' ≤ c && c ≤ 'z') || ('A' ≤ c && c ≤ 'Z') || ('0' ≤ c && c ≤ '9')

/-- `hostnameRFC1123`, whose length the wire checks. -/
def isHostnameLabel (s : String) : Bool :=
  s.toList ≠ [] && s.toList.all (fun c => isAlnum c || c = '-')
    && s.toList.head?.any isAlnum && s.toList.getLast?.any isAlnum

/-- A radio section of that name is a HaLow radio. -/
def radioExistsAsMorse (t : Tree) (radioName : String) : Bool :=
  radioName ≠ "" && isMorseDevice t radioName

/-- WPA's length rule, counted in bytes; an open network has none. -/
def validatePassphrase (enc : WifiEncryption) (pass : String) : Except String Unit :=
  if enc = .none ∨ enc = .owe then .ok ()
  else if pass.utf8ByteSize < 8 ∨ 63 < pass.utf8ByteSize then
    .error ("passphrase length " ++ Nat.repr pass.utf8ByteSize ++ " not in [8,63]")
  else .ok ()

/-- A check passes its failure on with a word on where it struck. -/
def under (what : String) : Except String Unit → Except String Unit :=
  Except.mapError fun e => what ++ ": " ++ e

def quoted (s : String) : String := "\"" ++ s ++ "\""

def validateMeshChannelBandwidth (bandwidthMHz channel : Nat) : Except String Unit :=
  if channel = 0 then .error "mesh channel is required"
  else if bandwidthMHz ∈ [1, 2, 4, 8, 20, 40, 80, 160] then .ok ()
  else .error ("mesh bandwidth " ++ Nat.repr bandwidthMHz ++ " MHz is not a supported value")

def Service.validateMeshCountry (S : Service) (mesh : MeshRadioConfig) : Except String Unit :=
  match S.regDB with
  | .notInstalled => .ok ()
  | .broken text => .error ("load morse regdb: " ++ text)
  | .installed isLegalChannel =>
      if mesh.countryCode = "" then
        .error "mesh.country_code is required when the regulatory database is installed"
      else if isLegalChannel mesh.countryCode mesh.bandwidthMhz mesh.channel then .ok ()
      else .error ("country " ++ quoted mesh.countryCode ++ " does not allow channel "
        ++ Nat.repr mesh.channel ++ " at " ++ Nat.repr mesh.bandwidthMhz ++ " MHz")

/-- The entries are for distinct radios, none of them the mesh radio and
none a HaLow radio, enabled or not. -/
def validateAPs (meshRadio : String) (isMorse : String → Bool) :
    List String → List RadioApProfile → Except String Unit
  | _, [] => .ok ()
  | seen, ap :: rest =>
      let name := ap.radioName
      if name = "" then .error "AP radio_name is required"
      else if name = meshRadio then
        .error ("AP radio " ++ quoted name ++ " must differ from the mesh radio")
      else if isMorse name then
        .error ("AP radio " ++ quoted name
          ++ " is a HaLow (type=morse) wifi-device, which only carries mesh interfaces")
      else if name ∈ seen then .error ("AP radio " ++ quoted name ++ " listed more than once")
      else if ap.enabled then do
        under ("AP " ++ quoted name) (validatePassphrase ap.encryption ap.passphrase)
        validateAPs meshRadio isMorse (name :: seen) rest
      else validateAPs meshRadio isMorse (name :: seen) rest

/-- No entry uses the uplink's radio for a network of its own. -/
def validateUplinkClash (radio : String) : List RadioApProfile → Except String Unit
  | [] => .ok ()
  | ap :: rest =>
      if ap.radioName ≠ radio then validateUplinkClash radio rest
      else if ap.enabled then
        .error ("uplink STA radio " ++ quoted radio ++ " is also configured as an enabled AP")
      else if ap.meshBackhaul.isSome then
        .error ("mesh backhaul radio " ++ quoted radio ++ " is also the wireless uplink radio")
      else validateUplinkClash radio rest

def validateUplink (uplink : Option Uplink) (meshRadio : String) (aps : List RadioApProfile)
    (isMorse : String → Bool) : Except String Unit :=
  match uplink with
  | none => .ok ()
  | some u =>
      if u.type ≠ .wirelessSta then .ok ()
      else
        match u.wireless with
        | none => .error "uplink.wireless.radio_name is required for wireless STA uplink"
        | some w =>
            if w.radioName = "" then
              .error "uplink.wireless.radio_name is required for wireless STA uplink"
            else if w.radioName = meshRadio then
              .error ("uplink STA radio " ++ quoted w.radioName ++ " must differ from the mesh radio")
            else if isMorse w.radioName then
              .error ("uplink STA radio " ++ quoted w.radioName
                ++ " is a HaLow (type=morse) wifi-device, which only carries mesh interfaces")
            else do
              validateUplinkClash w.radioName aps
              under "uplink" (validatePassphrase w.encryption w.passphrase)

/-- The role and the fields that go with it. -/
def validateRole (p : MeshNodeProfile) : Except String Unit :=
  match p.role with
  | .unspecified => .error "role is required"
  | .meshGate =>
      if p.meshgateMode = .unspecified then
        .error "meshgate_mode is required when role is MESH_GATE"
      else if p.meshpointMode ≠ .unspecified then
        .error "meshpoint_mode must not be set when role is MESH_GATE"
      else if p.uplinkType = .unspecified then .error "uplink is required when role is MESH_GATE"
      else .ok ()
  | .meshPoint =>
      if p.meshpointMode = .unspecified then
        .error "meshpoint_mode is required when role is MESH_POINT"
      else if p.meshpointMode = .none then
        .error ("meshpoint_mode NONE is not supported yet: "
          ++ "the address-reservation worker overrides a DHCP-client ahwlan on its first tick")
      else if p.meshgateMode ≠ .unspecified then
        .error "meshgate_mode must not be set when role is MESH_POINT"
      else .ok ()
  | .unknown _ => .ok ()

def Service.validateProfile (S : Service) (t : Tree) (p : MeshNodeProfile) : Except String Unit :=
  if !isHostnameLabel p.hostname then
    .error ("hostname " ++ quoted p.hostname ++ " is not a valid RFC 1123 label")
  else if p.timezone ≠ "" ∧ (S.posixTZ p.timezone).isNone then
    .error ("unknown timezone " ++ quoted p.timezone)
  else do
    validateRole p
    match p.mesh with
    | none => .error "mesh radio configuration is required"
    | some mesh =>
        if mesh.radioName = "" then .error "mesh radio configuration is required"
        else if !radioExistsAsMorse t mesh.radioName then
          .error ("mesh radio " ++ quoted mesh.radioName ++ " is not a HaLow (type=morse) wifi-device")
        else do
          validateMeshChannelBandwidth mesh.bandwidthMhz mesh.channel
          S.validateMeshCountry mesh
          validateAPs mesh.radioName (radioExistsAsMorse t) [] p.aps
          validateUplink p.uplink mesh.radioName p.aps (radioExistsAsMorse t)
          under "mesh" (validatePassphrase mesh.encryption mesh.passphrase)
          if p.adminPassword.utf8ByteSize < 8 then
            .error "admin_password must be at least 8 characters"
          else .ok ()

/-- The one entry that is a backhaul. -/
def findBackhaul : Option (RadioApProfile × MeshBackhaulProfile) → List RadioApProfile →
    Except String (Option (RadioApProfile × MeshBackhaulProfile))
  | found, [] => .ok found
  | found, ap :: rest =>
      match ap.meshBackhaul with
      | none => findBackhaul found rest
      | some bh =>
          if ap.enabled then
            .error ("radio " ++ quoted ap.radioName ++ " cannot be both an AP and the mesh backhaul")
          else
            match found with
            | some (first, _) =>
                .error ("only one radio may be the mesh backhaul (" ++ quoted first.radioName
                  ++ " and " ++ quoted ap.radioName ++ ")")
            | none => findBackhaul (some (ap, bh)) rest

def availableChannels2G : List Nat := [1, 2, 3, 4, 5, 6, 7, 8, 9, 10, 11]

/-- Channel and width are both given or neither is. -/
def validateBackhaulRadioTuning (radio : String) (bh : MeshBackhaulProfile) : Except String Unit :=
  if (bh.channel = 0) ≠ (bh.bandwidthMhz = 0) then
    .error ("mesh backhaul on " ++ quoted radio ++ ": channel and bandwidth_mhz must be set together")
  else if bh.channel = 0 then .ok ()
  else if secondaryMeshHTMode bh.bandwidthMhz = "" then
    .error ("mesh backhaul on " ++ quoted radio ++ ": " ++ Nat.repr bh.bandwidthMhz
      ++ " MHz is not a 2.4 GHz width (20 or 40)")
  else if bh.channel ∈ availableChannels2G then .ok ()
  else .error ("mesh backhaul on " ++ quoted radio ++ ": channel " ++ Nat.repr bh.channel
    ++ " is not a 2.4 GHz channel (1-11)")

/-- A check as part of a program. -/
def check (e : Except String Unit) : Prog Unit :=
  match e with
  | .ok () => pure ()
  | .error text => fail text

def Service.radioSupportsMeshBackhaul (S : Service) (name : String) : Prog Bool := do
  let radios ← S.collectSetupRadios
  pure ((radios.find? fun r => r.name = name).any (·.supportsMeshBackhaul))

def Service.validateMeshBackhaul (S : Service) (p : MeshNodeProfile) : Prog Unit :=
  match findBackhaul none p.aps with
  | .error text => fail text
  | .ok none => pure ()
  | .ok (some (ap, bh)) => do
      if ← S.radioSupportsMeshBackhaul ap.radioName then
        check (validateBackhaulRadioTuning ap.radioName bh)
      else
        fail ("radio " ++ quoted ap.radioName
          ++ " does not support mesh backhaul (needs a 2.4 GHz MT7915/MT7916 radio)")

/-- The checks of the first phase. -/
def Service.validate (S : Service) (p : MeshNodeProfile) : Prog Unit := do
  check (S.validateProfile (← tree) p)
  S.validateMeshBackhaul p

end Setup

end OpenManet
