import OpenManet.Wifi.Join
import OpenManet.Lib.Uci.Alike
/-!
# Staging on the files

What staging a radio means for the two files it touches, with nothing in
between: no memory, no commit that could be refused. A radio is staged, or
its request is refused and the files are left as far as they had come, or
one of its sections cannot be written at all.

Reads of the files go through the tree a process has right after a reload.
-/

namespace OpenManet

namespace Wifi

open Uci Fallible Network

/-- The two files. -/
structure Files where
  wireless : Uci.Config
  network : Option Uci.Config

/-- The tree of a process that has just read them. -/
def Files.tree (f : Files) : Tree where
  mem config :=
    if config = wirelessConfig then some f.wireless
    else if config = "network" then f.network
    else none
  disk config :=
    if config = wirelessConfig then some f.wireless
    else if config = "network" then f.network
    else none
  dirty _ := false

/-- The files say the same. -/
def Files.Alike (f g : Files) : Prop :=
  f.wireless.Alike g.wireless ∧ Option.Rel Config.Alike f.network g.network

theorem optionRel_rfl (n : Option Uci.Config) : Option.Rel Config.Alike n n := by
  cases n with
  | none => exact .none
  | some c => exact .some .rfl

@[simp] theorem Files.Alike.rfl {f : Files} : f.Alike f := ⟨.rfl, optionRel_rfl _⟩

/-! ## The device -/

/-- The section of the radio is there or can be made, or nothing is written
to it. -/
def Files.Writable (f : Files) (radioName : String) (st : RadioSettings) : Prop :=
  ((f.wireless.ensure radioName "wifi-device").find radioName).isSome = true ∨ st.deviceWrites = []

instance (f : Files) (radioName : String) (st : RadioSettings) :
    Decidable (f.Writable radioName st) := inferInstanceAs (Decidable (_ ∨ _))

/-- The files with the device options. -/
def Files.device (f : Files) (radioName : String) (st : RadioSettings) : Files :=
  { f with wireless := (f.wireless.ensure radioName "wifi-device").writes radioName st.deviceWrites }

/-! ## The interface -/

inductive Outcome where
  | staged (f : Files)
  | refused (f : Files)
  | unwritable

/-- The files with the hardif, none where its name is taken by a section
that is not an interface. -/
def Files.hardif (f : Files) (batmesh : String) : Option Files :=
  if batmanInterfaceExists f.tree batmesh then some f
  else
    let n := f.network.getD Config.empty
    if (n.find batmesh).isSome then none
    else
      let hardif := (n.push "interface" batmesh).writes batmesh
        [("proto", "batadv_hardif"), ("master", batmanDeviceName)]
      some { f with network := some hardif }

/-- What the identity of the interface clears. -/
def identityClears (mode : String) : List String :=
  if mode = "mesh" then ["ssid"] else if mode = "ap" ∨ mode = "sta" then ["mesh_id"] else []

/-- What a mode clears. -/
def modeClears (mode : String) : List String :=
  if mode = "ap" ∨ mode = "sta" then meshOnlyOptions else []

/-- The identity of the interface. -/
def identityOf (mode : String) (st : RadioSettings) (cfg : UCIWirelessIface) : UCIWirelessIface :=
  if mode = "mesh" then { cfg with meshID := if st.getMeshId = "" then st.ssid else st.getMeshId }
  else if mode = "ap" ∨ mode = "sta" then { cfg with ssid := st.ssid }
  else { cfg with ssid := st.ssid, meshID := st.meshId.getD cfg.meshID }

/-- The interface options as they are written in the end. -/
def Files.ifaceCfg (f : Files) (radioName ifaceName : String) (st : RadioSettings)
    (cfg : UCIWirelessIface) : UCIWirelessIface :=
  let effMode := effectiveIfaceMode f.tree ifaceName cfg.mode
  { identityOf effMode st
      { cfg with meshRSSIThreshold := admissionFloor f.tree radioName effMode st } with
    disabled := ifaceDisabledValue st }

/-- The files with the interface options. -/
def Files.iface (f : Files) (radioName ifaceName : String) (st : RadioSettings)
    (cfg : UCIWirelessIface) : Files :=
  let cleared := modeClears cfg.mode ++
    identityClears (effectiveIfaceMode f.tree ifaceName cfg.mode)
  let ws := written (ifaceOptionFields (f.ifaceCfg radioName ifaceName st cfg))
  { f with wireless := (f.wireless.drops ifaceName cleared).writes ifaceName ws }

/-- The interface is given its network and its options. -/
def Files.place (S : WifiConfigService) (f : Files) (radioName ifaceName : String)
    (st : RadioSettings) : Outcome :=
  let cfg := st.baseIface
  if cfg.mode = "mesh" then
    match meshNetwork f.tree ifaceName with
    | .error _ => .refused f
    | .ok (network, batmesh) =>
        match f.hardif batmesh with
        | none => .unwritable
        | some g => .staged (g.iface radioName ifaceName st
            (S.stageSecondaryMeshPolicy radioName batmesh
              { cfg with meshFwding := "0", network := network }))
  else if cfg.mode = "ap" ∨ cfg.mode = "sta" then
    .staged (f.iface radioName ifaceName st { cfg with network := wifiNetworkAhwlan })
  else .staged (f.iface radioName ifaceName st cfg)

/-! ## Radios -/

/-- One radio. -/
def Files.stage (S : WifiConfigService) (f : Files) (u : RadioSettingsUpdate) : Outcome :=
  match checkRadio f.tree u.radioName u.settings with
  | .error _ => .refused f
  | .ok (st, ifaceName) =>
      if f.Writable u.radioName st then (f.device u.radioName st).place S u.radioName ifaceName st
      else .unwritable

/-- Radio by radio, up to the first that is not staged. -/
def Files.stageAll (S : WifiConfigService) : Files → List RadioSettingsUpdate → Outcome
  | f, [] => .staged f
  | f, u :: us =>
      match f.stage S u with
      | .staged g => g.stageAll S us
      | other => other

end Wifi

end OpenManet
