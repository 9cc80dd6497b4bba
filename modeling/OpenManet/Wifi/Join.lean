import OpenManet.Wifi.Staging
import OpenManet.Setup.Phases
/-!
# Joining a mesh

A scanned payload carries the credentials of a HaLow mesh and of its 2.4 GHz
backhaul. Joining resolves a radio for either, checks the credentials and
the regulatory tuple, overlays them on the settings the radios have, and
hands the settings to the batch. Up to there it reads only, and it reads
what is in memory; the batch refreshes that first.
-/

namespace OpenManet

namespace Wifi

open Uci Fallible Network
open Setup (WifiEncryption RegDB bandwidthToHTMode quoted)

structure MeshCredentials where
  meshId : String
  passphrase : String
  encryption : WifiEncryption
  bandwidthMhz : Nat
  channel : Nat
  countryCode : String
deriving DecidableEq

structure MeshJoinPayload where
  halow : Option MeshCredentials
  backhaul : Option MeshCredentials
  sourceHostname : String

structure ApplyMeshJoinRequest where
  payload : Option MeshJoinPayload
  halowRadio : String
  backhaulRadio : String

/-- What the service is wired with. -/
structure MeshJoinService where
  /-- The service that writes radio settings. -/
  radios : Option WifiConfigService
  regDB : RegDB

/-! ## Mesh interfaces -/

/-- The wireless config in memory; one that is not there reads as empty. -/
def wirelessOf (t : Tree) : Uci.Config := (t.mem wirelessConfig).getD Config.empty

/-- An enabled mesh interface with its radio. -/
structure MeshIface where
  device : UCIWirelessDevice
  iface : UCIWirelessIface
  sec : String
  radio : String
  network : String
  isMorse : Bool

/-- The mesh interface of a section, none where it is disabled or not a
mesh. -/
def meshIfaceOf (c : Uci.Config) (sec : String) : Option MeshIface :=
  let iface := getWirelessIfaceByName c sec
  if iface.mode ≠ "mesh" ∨ iface.disabled = "1" ∨ iface.device = "" then none
  else
    let dev := getWirelessDeviceByName c iface.device
    some ⟨dev, iface, sec, iface.device, iface.network, Text.equalFold dev.type "morse"⟩

/-- The mesh interfaces, by the name of the section. -/
def listMeshIfaces (t : Tree) : Except String (List MeshIface) :=
  match listing t wirelessConfig "wifi-iface" with
  | .error e => .error ("list wifi-iface sections: " ++ e.text)
  | .ok sections =>
      .ok ((sections.filterMap (meshIfaceOf (wirelessOf t))).mergeSort fun a b => a.sec ≤ b.sec)

/-- The interface on the secondary hardif first, then any that is not
HaLow. -/
def pickBackhaulIface (ifaces : List MeshIface) : Option MeshIface :=
  (ifaces.find? fun mi => !mi.isMorse && mi.network == batmanSecondaryIface).or
    (ifaces.find? fun mi => !mi.isMorse)

/-! ## Targets -/

def resolveHalowRadio (t : Tree) (override : String) : Except ConnectError String :=
  if override ≠ "" then
    if isMorseDevice t override then .ok override
    else .error ⟨.invalidArgument, "halow_radio " ++ quoted override
      ++ " is not a HaLow (morse) radio"⟩
  else
    match listing t wirelessConfig "wifi-device" with
    | .error e => .error ⟨.internal, "list wifi-device sections: " ++ e.text⟩
    | .ok devices =>
        match (devices.filter (isMorseDevice t)).mergeSort (fun a b => a ≤ b) with
        | [] => .error ⟨.failedPrecondition, "no HaLow radio on this node"⟩
        | [radio] => .ok radio
        | morse => .error ⟨.invalidArgument, Nat.repr morse.length ++ " HaLow radios found ("
            ++ String.intercalate ", " morse ++ "); set halow_radio"⟩

def noBackhaulReason : String :=
  "no 2.4 GHz radio is in mesh mode; switch one to mesh and scan again"

/-- The backhaul radio, or why there is none. -/
def resolveBackhaulRadio (t : Tree) (override : String) :
    Except ConnectError (String × String) :=
  match listing t wirelessConfig "wifi-iface" with
  | .error e => .error ⟨.internal, "list wifi-iface sections: " ++ e.text⟩
  | .ok ifaceSections =>
      if override ≠ "" then
        if isMorseDevice t override then
          .error ⟨.invalidArgument, "backhaul_radio " ++ quoted override ++ " is the HaLow radio"⟩
        else if findLinkedIface override ifaceSections t = "" then
          .error ⟨.invalidArgument, "backhaul_radio " ++ quoted override ++ " has no wifi-iface"⟩
        else .ok (override, "")
      else
        match listMeshIfaces t with
        | .error text => .error ⟨.internal, text⟩
        | .ok ifaces =>
            match pickBackhaulIface ifaces with
            | some bh => .ok (bh.radio, "")
            | none => .ok ("", noBackhaulReason)

inductive MeshJoinRadioRole where
  | halow
  | backhaul
deriving DecidableEq

/-- One radio to be written. -/
structure JoinTarget where
  radio : String
  role : MeshJoinRadioRole
  creds : Option MeshCredentials
  isHalow : Bool

/-! ## Validation -/

def validateCredentials (label : String) : Option MeshCredentials → Except String MeshCredentials
  | none => .error (label ++ ": credentials are required")
  | some c =>
      if c.encryption ≠ .sae then .error (label ++ ": mesh is not WPA3 (SAE)")
      else if c.passphrase.utf8ByteSize < 8 ∨ 63 < c.passphrase.utf8ByteSize then
        .error (label ++ ": passphrase must be 8..63 characters")
      else if c.meshId = "" ∨ 32 < c.meshId.utf8ByteSize then
        .error (label ++ ": mesh ID must be 1..32 characters")
      else if c.channel = 0 then .error (label ++ ": channel is required")
      else .ok c

def availableChannels2G : List String := (List.range' 1 11).map Nat.repr
def availableChannelsS1G : List String := (List.range' 1 51).map Nat.repr

/-- What is wrong with a HaLow tuple, empty for nothing. -/
def checkHalowRegulatory (db : RegDB) (c : MeshCredentials) : Except String String :=
  if c.bandwidthMhz ∉ [1, 2, 4, 8] then
    .ok (Nat.repr c.bandwidthMhz ++ " MHz is not a HaLow width")
  else
    match db with
    | .broken text => .error ("load morse regdb: " ++ text)
    | .notInstalled =>
        if Nat.repr c.channel ∈ availableChannelsS1G then .ok ""
        else .ok ("channel " ++ Nat.repr c.channel ++ " is not an S1G channel")
    | .installed isLegalChannel =>
        if c.countryCode = "" then
          .ok "country_code is required when the regulatory database is installed"
        else if isLegalChannel c.countryCode c.bandwidthMhz c.channel then .ok ""
        else .ok ("channel " ++ Nat.repr c.channel ++ " is not legal at " ++ Nat.repr c.bandwidthMhz
          ++ " MHz in " ++ c.countryCode)

/-- What is wrong with a backhaul tuple, empty for nothing. -/
def checkBackhaulRegulatory (c : MeshCredentials) : String :=
  if secondaryMeshHTMode c.bandwidthMhz = "" ∨ c.bandwidthMhz = 0 then
    Nat.repr c.bandwidthMhz ++ " MHz is not a 2.4 GHz backhaul width (20 or 40)"
  else if Nat.repr c.channel ∈ availableChannels2G then ""
  else "channel " ++ Nat.repr c.channel ++ " is not a 2.4 GHz channel (1-11)"

/-- What is wrong with a target, empty for nothing. -/
def targetIssue (db : RegDB) (tgt : JoinTarget) : Except String String :=
  match validateCredentials tgt.radio tgt.creds with
  | .error issue => .ok issue
  | .ok c => do
      let issue ← if tgt.isHalow then checkHalowRegulatory db c else .ok (checkBackhaulRegulatory c)
      pure (if issue = "" then "" else tgt.radio ++ ": " ++ issue)

/-- The issues of all targets are reported together; a regulatory database
that cannot be read is an error of its own. -/
def validateTargets (db : RegDB) (targets : List JoinTarget) : Except ConnectError Unit :=
  match targets.mapM (targetIssue db) with
  | .error text => .error ⟨.internal, text⟩
  | .ok issues =>
      if issues.filter (· ≠ "") = [] then .ok ()
      else .error ⟨.invalidArgument, String.intercalate "; " (issues.filter (· ≠ ""))⟩

/-! ## Settings -/

/-- The radio's stored settings, without the password. -/
def currentRadioSettings (t : Tree) (radioName : String) : Except ConnectError RadioSettings := do
  let ifaceName ← linkedIface t radioName
  let dev := getWirelessDeviceByName (wirelessOf t) radioName
  let iface := getWirelessIfaceByName (wirelessOf t) ifaceName
  pure
    { ssid := iface.ssid
      meshId := if iface.meshID = "" then none else some iface.meshID
      password := none
      channel := dev.channel
      bandwidth := wifiHTModeToProto dev.htMode
      txPower := (parseInt32 dev.txPower).getD 0
      country := if dev.country = "" then none else some dev.country
      encryption := wifiEncryptionToProto iface.encryption
      disabled := if iface.disabled = "1" then some true else none
      mode := wifiModeToProto iface.mode
      meshRssiThreshold :=
        if iface.mode = "mesh" then parseInt32 iface.meshRSSIThreshold else none }

/-- The mode option for the width of a target. -/
def joinHTMode (isHalow : Bool) (bandwidthMhz : Nat) : String :=
  if isHalow then bandwidthToHTMode bandwidthMhz else secondaryMeshHTMode bandwidthMhz

/-- Settings with credentials laid over them. -/
def RadioSettings.overlay (cur : RadioSettings) (c : MeshCredentials) (bandwidth : WifiHTMode) :
    RadioSettings :=
  { cur with
    mode := .mesh
    ssid := c.meshId
    meshId := some c.meshId
    password := some c.passphrase
    encryption := .sae
    channel := Nat.repr c.channel
    bandwidth := bandwidth
    disabled := some false
    country := if c.countryCode = "" then cur.country else some c.countryCode }

/-- The credentials, laid over the settings the radio has. -/
def buildSettings (t : Tree) (tgt : JoinTarget) : Except ConnectError RadioSettingsUpdate := do
  let cur ← currentRadioSettings t tgt.radio
  -- the targets are valid here, so their credentials are there
  let c := tgt.creds.getD ⟨"", "", .unspecified, 0, 0, ""⟩
  let bandwidth := wifiHTModeToProto (joinHTMode tgt.isHalow c.bandwidthMhz)
  if bandwidth = .unspecified then
    .error ⟨.internal, "radio " ++ tgt.radio ++ ": no htmode for " ++ Nat.repr c.bandwidthMhz
      ++ " MHz"⟩
  else .ok ⟨tgt.radio, some (cur.overlay c bandwidth)⟩

/-! ## The handler -/

inductive MeshJoinRadioStatus where
  | applied
  | skipped
deriving DecidableEq

structure MeshJoinRadioResult where
  radioName : String
  role : MeshJoinRadioRole
  status : MeshJoinRadioStatus
  reason : String
deriving DecidableEq

def JoinTarget.result (tgt : JoinTarget) : MeshJoinRadioResult := ⟨tgt.radio, tgt.role, .applied, ""⟩

/-- The radios to be written, and the result of a backhaul that is
skipped. -/
def resolveTargets (t : Tree) (req : ApplyMeshJoinRequest) :
    Except ConnectError (List JoinTarget × List MeshJoinRadioResult) := do
  let halowRadio ← resolveHalowRadio t req.halowRadio
  let halow : JoinTarget := ⟨halowRadio, .halow, req.payload.bind (·.halow), true⟩
  match req.payload.bind (·.backhaul) with
  | none => pure ([halow], [])
  | some creds => do
      let (radio, reason) ← resolveBackhaulRadio t req.backhaulRadio
      if reason ≠ "" then pure ([halow], [⟨"", .backhaul, .skipped, reason⟩])
      else pure ([halow, ⟨radio, .backhaul, some creds, false⟩], [])

/-- What is decided before the first write: the results to report, and the
settings of the radios. -/
def MeshJoinService.prepare (J : MeshJoinService) (t : Tree) (req : ApplyMeshJoinRequest) :
    Except ConnectError (List MeshJoinRadioResult × List RadioSettingsUpdate) := do
  let (targets, skipped) ← resolveTargets t req
  validateTargets J.regDB targets
  let updates ← targets.mapM (buildSettings t)
  pure (targets.map JoinTarget.result ++ skipped, updates)

/-- How a join fails: with an error of its own, or with one that wraps the
batch's. -/
structure JoinError where
  error : ConnectError
  cause : Option ApplyError

/-- `ApplyMeshJoin`. -/
def MeshJoinService.applyMeshJoin (J : MeshJoinService) (req : ApplyMeshJoinRequest) :
    EStateM JoinError Host (List MeshJoinRadioResult) := fun h =>
  match J.radios with
  | none => .error ⟨⟨.unavailable, "radio settings are not available on this node"⟩, none⟩ h
  | some S =>
      match J.prepare h.tree req with
      | .error e => .error ⟨e, none⟩ h
      | .ok (results, updates) =>
          match S.applyRadioSettingsBatch updates h with
          | .ok () h' => .ok results h'
          | .error e h' =>
              .error ⟨⟨.internal, "apply radio settings: " ++ e.text⟩, some e⟩ h'

end Wifi

end OpenManet
