import OpenManet.Lib.JsText
import OpenManet.Setup.Status
/-!
# The state of the setup wizard

The wizard keeps what the operator has chosen in one state, shaped like the
profile it will send, and every page changes it through the actions of one
reducer. The radios other than the mesh radio have an entry each, made when
one is first touched; an entry keeps the fields of an access point and of a
mesh backhaul side by side, so that a change of mind loses neither.
-/

namespace OpenManet

namespace Wizard

open Setup

/-! ## State -/

structure Mesh where
  radioName : String
  meshId : String
  passphrase : String
  encryption : WifiEncryption
  bandwidthMhz : ℕ
  channel : ℕ
  countryCode : String
  /-- The values come from a scanned code, and none has been edited. -/
  fromScan : Bool
deriving DecidableEq

structure UplinkChoice where
  type : UplinkType
  ethernetPort : String
  wireless : WifiStaProfile
deriving DecidableEq

/-- The entry of a radio. -/
structure RadioAp where
  radioName : String
  enabled : Bool
  ssid : String
  passphrase : String
  encryption : WifiEncryption
  meshBackhaul : Bool
  backhaulMeshId : String
  backhaulPassphrase : String
  backhaulBandwidthMhz : ℕ
  backhaulChannel : ℕ
  backhaulCountryCode : String
  backhaulFromScan : Bool
deriving DecidableEq

/-- The scanned code that was applied. -/
structure MeshJoin where
  sourceHostname : String
  backhaulRadio : String
  backhaulSkippedReason : String
deriving DecidableEq

structure State where
  hostname : String
  adminPassword : String
  role : MeshRole
  meshpointMode : MeshPointMode
  meshgateMode : MeshGateMode
  mesh : Mesh
  uplink : UplinkChoice
  aps : List RadioAp
  adminPasswordConfirm : String
  timezone : String
  meshJoin : Option MeshJoin
deriving DecidableEq

def initialState : State where
  hostname := ""
  adminPassword := ""
  role := .meshPoint
  meshpointMode := .extender
  meshgateMode := .unspecified
  mesh := {
    radioName := "", meshId := "openmanet", passphrase := "", encryption := .sae,
    bandwidthMhz := 2, channel := 42, countryCode := "", fromScan := false }
  uplink := {
    type := .unspecified, ethernetPort := "",
    wireless := { radioName := "", ssid := "", passphrase := "", encryption := .psk2 } }
  aps := []
  adminPasswordConfirm := ""
  timezone := ""
  meshJoin := none

def apDefaults (radioName : String) : RadioAp where
  radioName := radioName
  enabled := false
  ssid := ""
  passphrase := ""
  encryption := .psk2
  meshBackhaul := false
  backhaulMeshId := ""
  backhaulPassphrase := ""
  backhaulBandwidthMhz := 0
  backhaulChannel := 0
  backhaulCountryCode := ""
  backhaulFromScan := false

/-! ## Actions -/

/-- What a code carries of one mesh. -/
structure MeshCredentials where
  meshId : String
  passphrase : String
  encryption : WifiEncryption
  bandwidthMhz : ℕ
  channel : ℕ
  countryCode : String
deriving DecidableEq

/-- A decoded code; one without the credentials of a HaLow mesh does not
decode. -/
structure MeshJoinPayload where
  sourceHostname : String
  halow : MeshCredentials
  backhaul : Option MeshCredentials

/-- A field of the mesh with its new value. -/
inductive MeshField where
  | radioName (value : String)
  | meshId (value : String)
  | passphrase (value : String)
  | bandwidthMhz (value : ℕ)
  | channel (value : ℕ)
  | countryCode (value : String)

/-- A field of the wireless uplink with its new value. -/
inductive StaField where
  | radioName (value : String)
  | ssid (value : String)
  | passphrase (value : String)
  | encryption (value : WifiEncryption)

inductive RadioMode where
  | off
  | ap
  | backhaul
deriving DecidableEq

/-- The actions. An entry is always sent whole. -/
inductive Action where
  | setHostname (value : String)
  | setRole (value : MeshRole)
  | setMeshpointMode (value : MeshPointMode)
  | setMeshgateMode (value : MeshGateMode)
  | setMeshField (field : MeshField)
  | applyMeshJoin (payload : MeshJoinPayload) (radios : List SetupRadio)
  | setUplinkType (value : UplinkType)
  | setUplinkField (ethernetPort : String)
  | setUplinkWireless (field : StaField)
  | setAp (value : RadioAp)
  | removeAp (radioName : String)
  | setRadioMode (radioName : String) (mode : RadioMode)
  | setAdminPassword (value : String)
  | setAdminPasswordConfirm (value : String)
  | setTimezone (value : String)
  | reset
  | hydrateFromStatus (status : GetSetupStatusResponse) (browserTimezone : String)

/-! ## The reducer -/

/-- `value || default` of strings. -/
def orElse (value default : String) : String := if value = "" then default else value

def MeshField.set (m : Mesh) : MeshField → Mesh
  | .radioName v => { m with radioName := v }
  -- any other edit ends the hold on the scanned values
  | .meshId v => { m with meshId := v, fromScan := false }
  | .passphrase v => { m with passphrase := v, fromScan := false }
  | .bandwidthMhz v => { m with bandwidthMhz := v, fromScan := false }
  | .channel v => { m with channel := v, fromScan := false }
  | .countryCode v => { m with countryCode := v, fromScan := false }

def StaField.set (w : WifiStaProfile) : StaField → WifiStaProfile
  | .radioName v => { w with radioName := v }
  | .ssid v => { w with ssid := v }
  | .passphrase v => { w with passphrase := v }
  | .encryption v => { w with encryption := v }

/-- The entry of a radio, or the one it would be given. -/
def entryOf (aps : List RadioAp) (radioName : String) : RadioAp :=
  (aps.find? fun ap => ap.radioName = radioName).getD (apDefaults radioName)

/-- An entry in the place of its radio's first, or at the end. -/
def upsert (ap : RadioAp) : List RadioAp → List RadioAp
  | [] => [ap]
  | a :: as => if a.radioName = ap.radioName then ap :: as else a :: upsert ap as

def RadioAp.clearBackhaul (ap : RadioAp) : RadioAp := { ap with meshBackhaul := false }

/-- The backhaul ID a radio is given: what is left of the mesh ID with a
suffix. -/
def seedMeshId (meshId : String) : String := Utf16.slice 29 meshId ++ "-2g"

def setRole (s : State) (role : MeshRole) : State :=
  match role with
  | .meshGate =>
      { s with
        role := role
        meshpointMode := .unspecified
        meshgateMode := if s.meshgateMode = .unspecified then .router else s.meshgateMode }
  | .meshPoint =>
      { s with
        role := role
        meshgateMode := .unspecified
        meshpointMode := if s.meshpointMode = .unspecified then .extender else s.meshpointMode
        uplink := initialState.uplink }
  | _ => { s with role := role }

/-- One radio at most is the backhaul. -/
def setRadioMode (s : State) (radioName : String) (mode : RadioMode) : State :=
  let existing := entryOf s.aps radioName
  let updated := { existing with
    enabled := decide (mode = .ap)
    meshBackhaul := decide (mode = .backhaul)
    backhaulMeshId :=
      if mode = .backhaul ∧ existing.backhaulMeshId = "" then seedMeshId s.mesh.meshId
      else existing.backhaulMeshId }
  let aps := s.aps.map fun ap =>
    if mode = .backhaul ∧ ap.radioName ≠ radioName ∧ ap.meshBackhaul then ap.clearBackhaul else ap
  { s with aps := upsert updated aps }

/-- The country the wizard starts with. -/
def hydratedCountry (status : GetSetupStatusResponse) : String :=
  if status.currentCountry ≠ "" ∧ status.countries.any fun c => c.code = status.currentCountry then
    status.currentCountry
  else if status.countries.any fun c => c.code = "US" then "US"
  else (status.countries.head?.map (·.code)).getD ""

/-- The zone the wizard starts with. -/
def hydratedTimezone (status : GetSetupStatusResponse) (browserTimezone : String) : String :=
  if browserTimezone ≠ "" ∧ browserTimezone ∈ status.timezones then browserTimezone
  else status.currentTimezone

def hydrate (s : State) (status : GetSetupStatusResponse) (browserTimezone : String) : State :=
  { s with
    hostname := orElse s.hostname status.currentHostname
    mesh := { s.mesh with
      radioName :=
        ((status.radios.find? (·.isHalow)).map (·.name)).getD s.mesh.radioName
      countryCode := orElse s.mesh.countryCode (hydratedCountry status) }
    timezone := orElse s.timezone (hydratedTimezone status browserTimezone) }

def joinMesh (m : Mesh) (h : MeshCredentials) : Mesh :=
  { m with
    meshId := h.meshId
    passphrase := h.passphrase
    encryption := h.encryption
    bandwidthMhz := h.bandwidthMhz
    channel := h.channel
    countryCode := orElse h.countryCode m.countryCode
    fromScan := true }

/-- The entry of the radio a scanned backhaul goes to. -/
def joinBackhaul (ap : RadioAp) (h b : MeshCredentials) : RadioAp :=
  { ap with
    enabled := false
    meshBackhaul := true
    backhaulMeshId := b.meshId
    backhaulPassphrase := b.passphrase
    backhaulBandwidthMhz := b.bandwidthMhz
    backhaulChannel := b.channel
    backhaulCountryCode := orElse b.countryCode h.countryCode
    backhaulFromScan := true }

/-- The radio a scanned backhaul goes to, never the one of the uplink. -/
def backhaulTarget (s : State) (radios : List SetupRadio) : Option SetupRadio :=
  radios.find? fun r =>
    r.supportsMeshBackhaul && !r.isHalow && decide (r.name ≠ s.uplink.wireless.radioName)

def applyMeshJoin (s : State) (payload : MeshJoinPayload) (radios : List SetupRadio) : State :=
  let next := { s with mesh := joinMesh s.mesh payload.halow }
  let meshJoin : MeshJoin :=
    { sourceHostname := payload.sourceHostname, backhaulRadio := "", backhaulSkippedReason := "" }
  match payload.backhaul with
  | none => { next with meshJoin := some meshJoin }
  | some b =>
      match backhaulTarget s radios with
      | none =>
          { next with meshJoin := some { meshJoin with backhaulSkippedReason := "no-capable-radio" } }
      | some target =>
          { next with
            aps := (s.aps.filter fun ap => ap.radioName ≠ target.name).map RadioAp.clearBackhaul
              ++ [joinBackhaul (entryOf s.aps target.name) payload.halow b]
            meshJoin := some { meshJoin with backhaulRadio := target.name } }

def reducer (s : State) : Action → State
  | .setHostname v => { s with hostname := v }
  | .setRole v => setRole s v
  | .setMeshpointMode v => { s with meshpointMode := v }
  | .setMeshgateMode v => { s with meshgateMode := v }
  | .setMeshField f => { s with mesh := f.set s.mesh }
  | .setUplinkType v => { s with uplink := { s.uplink with type := v } }
  | .setUplinkField v => { s with uplink := { s.uplink with ethernetPort := v } }
  | .setUplinkWireless f =>
      { s with uplink := { s.uplink with wireless := f.set s.uplink.wireless } }
  | .setAp v => { s with aps := upsert v s.aps }
  | .setRadioMode radioName mode => setRadioMode s radioName mode
  | .removeAp radioName => { s with aps := s.aps.filter fun ap => ap.radioName ≠ radioName }
  | .setAdminPassword v => { s with adminPassword := v }
  | .setAdminPasswordConfirm v => { s with adminPasswordConfirm := v }
  | .setTimezone v => { s with timezone := v }
  | .reset => initialState
  | .hydrateFromStatus status browserTimezone => hydrate s status browserTimezone
  | .applyMeshJoin payload radios => applyMeshJoin s payload radios

/-! ## Entries -/

section Entries

variable {aps : List RadioAp} {a ap : RadioAp} {radioName : String}

theorem entryOf_cases (aps : List RadioAp) (radioName : String) :
    (entryOf aps radioName ∈ aps ∨ entryOf aps radioName = apDefaults radioName) ∧
      (entryOf aps radioName).radioName = radioName := by
  unfold entryOf
  cases hfind : aps.find? fun ap => ap.radioName = radioName with
  | none => exact ⟨.inr rfl, rfl⟩
  | some ap => exact ⟨.inl (List.mem_of_find?_eq_some hfind), by simpa using List.find?_some hfind⟩

theorem mem_of_mem_upsert (h : a ∈ upsert ap aps) : a = ap ∨ a ∈ aps := by
  induction aps with
  | nil => exact .inl (List.mem_singleton.1 h)
  | cons b bs ih =>
      unfold upsert at h
      split_ifs at h
      · exact (List.mem_cons.1 h).imp_right (List.mem_cons_of_mem _)
      · rcases List.mem_cons.1 h with rfl | h
        · exact .inr (List.mem_cons_self ..)
        · exact (ih h).imp_right (List.mem_cons_of_mem _)

theorem nodup_upsert (h : (aps.map (·.radioName)).Nodup) :
    ((upsert ap aps).map (·.radioName)).Nodup := by
  induction aps with
  | nil => simp [upsert]
  | cons b bs ih =>
      obtain ⟨hb, hrest⟩ := List.nodup_cons.1 h
      unfold upsert
      split_ifs with hsame
      · rw [List.map_cons, ← hsame]
        exact h
      · refine List.nodup_cons.2 ⟨fun hin => ?_, ih hrest⟩
        obtain ⟨a, ha, heq⟩ := List.mem_map.1 hin
        rcases mem_of_mem_upsert ha with rfl | ha
        · exact hsame heq.symm
        · exact hb (List.mem_map.2 ⟨a, ha, heq⟩)

end Entries

end Wizard

end OpenManet
