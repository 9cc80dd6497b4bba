import OpenManet.Wifi.Settings
/-!
# Staging radio settings

The handlers that change a radio. A request is checked, the device options
are written and committed, the interface is given its network, and its
options are written and committed. A batch does so radio by radio and
reloads once at its end.

What refuses a request is an error of the call. A write that fails is told
apart from it, and reported in the answer by the handler of one radio.
-/

namespace OpenManet

namespace Wifi

open Uci Fallible Network
open Setup (protoToWifiEncryption quoted firstValue)

inductive Code where
  | invalidArgument
  | notFound
  | failedPrecondition
  | internal
  | unavailable
deriving DecidableEq

structure ConnectError where
  code : Code
  text : String
deriving DecidableEq

/-- How staging one radio fails: the request is refused, or UCI is. -/
inductive StageError where
  | connect (e : ConnectError)
  | write (msg : String)
deriving DecidableEq

def StageError.text : StageError → String
  | .connect e => e.text
  | .write msg => msg

/-- What the service is wired with. -/
structure WifiConfigService where
  /-- The chipset of the radio is one the secondary link is tuned for; no,
  where it cannot be looked up. -/
  radioSupportsSecondaryMesh : String → Bool
  /-- What the system answers when it is told to reload. -/
  reloadServices : Option String

/-- One radio's new settings inside a batch. -/
structure RadioSettingsUpdate where
  radioName : String
  settings : Option RadioSettings

abbrev Stage := EStateM StageError Host

/-- The tree as it stands. -/
def current : Stage Tree := fun h => .ok h.tree h

def rejecting {α : Type} : Except ConnectError α → Stage α
  | .ok a => pure a
  | .error e => throw (.connect e)

def writing {α : Type} (what : String) (m : Prog α) : Stage α :=
  caught (fun e => throw (.write (what ++ ": " ++ e.text))) m

/-- `ReloadConfig`: the wireless config is read from its file; the network
config is, when next asked for. -/
def reloadConfig : Prog Unit := do
  saying "reload wireless" (loadConfig wirelessConfig)
  revert "network"

/-! ## Checks -/

def rejectNonMeshModeOnMorse (t : Tree) (radioName : String) (mode : WifiMode) :
    Except ConnectError Unit :=
  if mode = .unspecified ∨ mode = .mesh then .ok ()
  else if isMorseDevice t radioName then
    .error ⟨.invalidArgument, "radio " ++ quoted radioName
      ++ " is a HaLow (type=morse) wifi-device, which only carries mesh interfaces"⟩
  else .ok ()

/-- A mesh mode is refused before anything is written where there is no
batman-adv device. -/
def rejectMeshWithoutBatman (t : Tree) (mode : String) : Except ConnectError Unit :=
  if mode = "mesh" ∧ batmanDeviceExists t batmanDeviceName = false then
    .error ⟨.failedPrecondition, "batman-adv device " ++ quoted batmanDeviceName
      ++ " is not configured; run setup first"⟩
  else .ok ()

/-- The interface linked to the radio. -/
def linkedIface (t : Tree) (radioName : String) : Except ConnectError String :=
  match listing t wirelessConfig "wifi-iface" with
  | .error e => .error ⟨.internal, "list wifi-iface sections: " ++ e.text⟩
  | .ok ifaceSections =>
      if findLinkedIface radioName ifaceSections t = "" then
        .error ⟨.notFound, "no interface linked to radio " ++ quoted radioName⟩
      else .ok (findLinkedIface radioName ifaceSections t)

/-- The checks made before anything is written: the settings, and the
interface they are for. -/
def checkRadio (t : Tree) (radioName : String) :
    Option RadioSettings → Except ConnectError (RadioSettings × String)
  | none => .error ⟨.invalidArgument, "settings are required"⟩
  | some st => do
      rejectNonMeshModeOnMorse t radioName st.mode
      rejectMeshWithoutBatman t (protoToWifiMode st.mode)
      let ifaceName ← linkedIface t radioName
      pure (st, ifaceName)

/-! ## The interface -/

/-- The network a mesh interface is to be given, none where it is on a
hardif already, and the hardif it is on then. -/
def meshNetwork (t : Tree) (ifaceName : String) : Except ConnectError (String × String) :=
  let currentNet := firstValue t wirelessConfig ifaceName "network"
  if Text.hasPrefix currentNet "batmesh" then .ok ("", currentNet)
  else
    match findUnusedBatmesh t ifaceName with
    | .error text => .error ⟨.failedPrecondition, text⟩
    | .ok unused => .ok (unused, unused)

/-- A hardif of that name, created when it is not there. An existing section
is left as it is. -/
def ensureBatmanHardifInterface (ifaceName deviceName : String) : Prog Bool := do
  if batmanInterfaceExists (← tree) ifaceName then pure false
  else do
    saying ("creating " ++ ifaceName) (addSection "network" ifaceName "interface")
    saying ("setting " ++ ifaceName ++ ".proto")
      (setType "network" ifaceName "proto" ["batadv_hardif"])
    saying ("setting " ++ ifaceName ++ ".master") (setType "network" ifaceName "master" [deviceName])
    pure true

def WifiConfigService.stageSecondaryMeshPolicy (S : WifiConfigService) (radioName batmesh : String)
    (cfg : UCIWirelessIface) : UCIWirelessIface :=
  if batmesh ≠ batmanSecondaryIface ∨ S.radioSupportsSecondaryMesh radioName = false then cfg
  else cfg.applySecondaryMeshPolicy

/-- The key, the encryption and the mode of the request. -/
def RadioSettings.baseIface (st : RadioSettings) : UCIWirelessIface where
  key := st.getPassword
  encryption := protoToWifiEncryption st.encryption
  mode := protoToWifiMode st.mode

/-- The network of the interface in its new mode: a hardif for a mesh, the
bridge for an access point or a station. -/
def WifiConfigService.stageNetwork (S : WifiConfigService) (radioName ifaceName : String)
    (cfg : UCIWirelessIface) : Stage UCIWirelessIface := do
  if cfg.mode = "mesh" then do
    let (network, batmesh) ← rejecting (meshNetwork (← current) ifaceName)
    let _ ← writing ("failed to create network." ++ batmesh)
      (ensureBatmanHardifInterface batmesh batmanDeviceName)
    pure (S.stageSecondaryMeshPolicy radioName batmesh
      { cfg with meshFwding := "0", network := network })
  else if cfg.mode = "ap" ∨ cfg.mode = "sta" then
    pure { cfg with network := wifiNetworkAhwlan }
  else pure cfg

def clearMeshOnlyOptions (ifaceName : String) : Stage Unit :=
  meshOnlyOptions.forM fun option =>
    writing ("failed to clear " ++ option ++ " on " ++ ifaceName)
      (del wirelessConfig ifaceName option)

/-- The requested mode, else the one the section has. -/
def effectiveIfaceMode (t : Tree) (ifaceName mode : String) : String :=
  if mode ≠ "" then mode else firstValue t wirelessConfig ifaceName "mode"

/-- The admission floor, on a mesh interface of a radio that is not HaLow. -/
def admissionFloor (t : Tree) (radioName effMode : String) (st : RadioSettings) : String :=
  match st.meshRssiThreshold with
  | some v => if effMode = "mesh" ∧ isMorseDevice t radioName = false then toString v else ""
  | none => ""

/-- The network name goes where the mode has it, and is cleared where the
mode does not. -/
def stageIfaceIdentity (ifaceName mode : String) (st : RadioSettings) (cfg : UCIWirelessIface) :
    Stage UCIWirelessIface := do
  if mode = "mesh" then do
    writing "failed to clear ssid on mesh iface" (del wirelessConfig ifaceName "ssid")
    -- a client that only knows the ssid still gets a usable mesh
    pure { cfg with meshID := if st.getMeshId = "" then st.ssid else st.getMeshId }
  else if mode = "ap" ∨ mode = "sta" then do
    writing ("failed to clear mesh_id on " ++ mode ++ " iface")
      (del wirelessConfig ifaceName "mesh_id")
    pure { cfg with ssid := st.ssid }
  else pure { cfg with ssid := st.ssid, meshID := st.meshId.getD cfg.meshID }

/-- The interface options of a request, on top of those its mode and its
network have. -/
def stageIfaceOptions (radioName ifaceName : String) (st : RadioSettings)
    (cfg : UCIWirelessIface) : Stage Unit := do
  onlyIf (cfg.mode = "ap" ∨ cfg.mode = "sta") (clearMeshOnlyOptions ifaceName)
  let t ← current
  let effMode := effectiveIfaceMode t ifaceName cfg.mode
  let cfg ← stageIfaceIdentity ifaceName effMode st
    { cfg with meshRSSIThreshold := admissionFloor t radioName effMode st }
  writing "failed to update iface config"
    (setWirelessIfaceConfig ifaceName { cfg with disabled := ifaceDisabledValue st })

def WifiConfigService.stageIface (S : WifiConfigService) (radioName ifaceName : String)
    (st : RadioSettings) : Stage Unit := do
  let cfg ← S.stageNetwork radioName ifaceName st.baseIface
  stageIfaceOptions radioName ifaceName st cfg

/-! ## One radio -/

/-- Stages the settings of one radio. The device options are in the file
before the interface is given a network. -/
def WifiConfigService.stageRadioSettings (S : WifiConfigService) (radioName : String)
    (settings : Option RadioSettings) : Stage Unit := do
  let (st, ifaceName) ← rejecting (checkRadio (← current) radioName settings)
  writing "failed to update device config" (setWirelessDeviceConfig radioName st.devCfg)
  S.stageIface radioName ifaceName st

/-! ## The handlers -/

/-- The committed change takes effect. -/
def WifiConfigService.applyCommitted (S : WifiConfigService) : EStateM String Host Unit := do
  caught (fun e => throw ("re-read uci: " ++ e.text)) reloadConfig
  match S.reloadServices with
  | none => pure ()
  | some e => throw e

/-- How a change of radios fails. -/
inductive ApplyError where
  | refresh (text : String)
  | stage (radioName : String) (e : StageError)
  | reload (text : String)
deriving DecidableEq

def refreshed : EStateM ApplyError Host Unit := caught (fun e => throw (.refresh e.text)) reloadConfig

def WifiConfigService.staged (S : WifiConfigService) (u : RadioSettingsUpdate) :
    EStateM ApplyError Host Unit :=
  caught (fun e => throw (.stage u.radioName e)) (S.stageRadioSettings u.radioName u.settings)

def WifiConfigService.applied (S : WifiConfigService) : EStateM ApplyError Host Unit :=
  caught (fun e => throw (.reload e)) S.applyCommitted

structure UpdateRadioSettingsResponse where
  success : Bool
  message : Option String
deriving DecidableEq

def unsuccessful (msg : String) : UpdateRadioSettingsResponse := ⟨false, some msg⟩

/-- A refused request is an error of the call, a UCI failure an answer. -/
def updateAnswer : ApplyError → EStateM ConnectError Host UpdateRadioSettingsResponse
  | .refresh text => pure (unsuccessful ("refresh config before write: " ++ text))
  | .stage _ (.connect e) => throw e
  | .stage _ (.write msg) => pure (unsuccessful msg)
  | .reload text => pure (unsuccessful ("config committed but reload failed: " ++ text))

/-- `UpdateRadioSettings`. -/
def WifiConfigService.updateRadioSettings (S : WifiConfigService) (u : RadioSettingsUpdate) :
    EStateM ConnectError Host UpdateRadioSettingsResponse :=
  caught updateAnswer do
    refreshed
    S.staged u
    S.applied
    pure ⟨true, none⟩

/-- The text of a failed batch. -/
def ApplyError.text : ApplyError → String
  | .refresh text => "refresh config before batch: " ++ text
  | .stage radioName e => "stage " ++ radioName ++ ": " ++ e.text
  | .reload text => "reload wireless: " ++ text

/-- `ApplyRadioSettingsBatch`: every radio is staged, then one reload. What
was staged for earlier radios stays. -/
def WifiConfigService.applyRadioSettingsBatch (S : WifiConfigService)
    (updates : List RadioSettingsUpdate) : EStateM ApplyError Host Unit := do
  refreshed
  updates.forM S.staged
  S.applied

end Wifi

end OpenManet
