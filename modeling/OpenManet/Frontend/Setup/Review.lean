import OpenManet.Frontend.Setup.State
/-!
# The last page of the setup wizard

What keeps the apply button disabled, and the profile that is sent. The page
checks the fields the operator can leave empty, the admin password and the
backhaul; the values of a scanned code are checked as long as they are held,
against what the node says its radios and its country allow.
-/

namespace OpenManet

namespace Wizard

open Setup Network

/-! ## Channels -/

/-- The widths and channels of the United States, for a node without a
regulatory database. -/
def fallbackUSChannels : ℕ → List ℕ
  | 1 => (List.range 26).map fun i => 2 * i + 1
  | 2 => (List.range 13).map fun i => 4 * i + 2
  | 4 => [8, 16, 24, 32, 40, 48]
  | 8 => [12, 28, 44]
  | _ => []

def findCountryEntry (countries : List Country) (code : String) : Option Country :=
  if code = "" then none else countries.find? fun c => c.code = code

def channelsForCountryBandwidth (entry : Option Country) (bandwidthMhz : ℕ) : List ℕ :=
  match entry.map fun c => c.channelsAt bandwidthMhz with
  | some (channel :: channels) => channel :: channels
  | _ => fallbackUSChannels bandwidthMhz

def bandwidthsForCountry (entry : Option Country) : List ℕ :=
  match entry.map (·.bandwidths) with
  | some (b :: bs) => ((b :: bs).map (·.mhz)).mergeSort
  | _ => [1, 2, 4, 8]

section Listed

variable {c : Country} {bandwidthMhz : ℕ}

/-- A country that lists widths is offered with these. -/
theorem mem_bandwidthsForCountry (hwide : c.bandwidths ≠ []) :
    bandwidthMhz ∈ bandwidthsForCountry (some c) ↔ ∃ b ∈ c.bandwidths, b.mhz = bandwidthMhz := by
  unfold bandwidthsForCountry
  rw [Option.map_some]
  cases hbs : c.bandwidths with
  | nil => exact absurd hbs hwide
  | cons b bs => rw [List.mem_mergeSort, List.mem_map]

/-- At a width it lists, a country has channels of its own. -/
theorem channelsForCountryBandwidth_of_mem (htuned : ∀ b ∈ c.bandwidths, b.channels ≠ [])
    (hwidth : ∃ b ∈ c.bandwidths, b.mhz = bandwidthMhz) :
    channelsForCountryBandwidth (some c) bandwidthMhz = c.channelsAt bandwidthMhz ∧
      c.channelsAt bandwidthMhz ≠ [] := by
  have hne : c.channelsAt bandwidthMhz ≠ [] := by
    unfold Country.channelsAt
    cases hfind : c.bandwidths.find? fun b => b.mhz = bandwidthMhz with
    | none =>
        obtain ⟨b, hb, hmhz⟩ := hwidth
        have hnone := List.find?_eq_none.1 hfind b hb
        simp [hmhz] at hnone
    | some b => exact htuned b (List.mem_of_find?_eq_some hfind)
  refine ⟨?_, hne⟩
  unfold channelsForCountryBandwidth
  rw [Option.map_some]
  cases hchannels : c.channelsAt bandwidthMhz with
  | nil => exact absurd hchannels hne
  | cons channel channels => rfl

end Listed

def backhaulBandwidths : List ℕ := [20, 40]

def backhaulChannels2G : List ℕ := [1, 2, 3, 4, 5, 6, 7, 8, 9, 10, 11]

/-! ## Scanned values -/

/-- A line for the operator, where the condition holds. -/
def sayIf (c : Prop) [Decidable c] (message : String) : List String := if c then [message] else []

@[simp] theorem sayIf_eq_nil {c : Prop} [Decidable c] {message : String} :
    sayIf c message = [] ↔ ¬ c := by
  unfold sayIf
  split_ifs with h
  · simp [h]
  · simp [h]

/-- What the target radio can take; an empty list is not known. -/
structure RadioOptions where
  isHalow : Bool
  bandwidths : List ℕ
  channels : List ℕ
  countries : List String
  /-- The longest country code that can be set, 0 for any. -/
  countryMaxLen : ℕ

/-- The widths a radio is held to. -/
def RadioOptions.widths (opts : RadioOptions) : List ℕ :=
  if opts.bandwidths ≠ [] then opts.bandwidths
  else if opts.isHalow then [1, 2, 4, 8] else [20, 40]

/-- `checkMeshCredentials`: the messages of the issues. -/
def checkMeshCredentials (creds : MeshCredentials) (opts : RadioOptions) : List String :=
  sayIf (creds.encryption ≠ .sae) "Mesh must be WPA3 (SAE)." ++
  sayIf (Utf16.length creds.passphrase < 8 ∨ 63 < Utf16.length creds.passphrase)
    "Passphrase must be 8–63 characters." ++
  sayIf (Utf16.length creds.meshId < 1 ∨ 32 < Utf16.length creds.meshId)
    "Mesh ID must be 1–32 characters." ++
  sayIf (creds.bandwidthMhz ∉ opts.widths)
    (Nat.repr creds.bandwidthMhz ++ " MHz is not available on this radio.") ++
  sayIf (creds.bandwidthMhz ∈ opts.widths ∧ opts.channels ≠ [] ∧ creds.channel ∉ opts.channels)
    ("Channel " ++ Nat.repr creds.channel ++ " is not legal at " ++ Nat.repr creds.bandwidthMhz
      ++ " MHz" ++ (if creds.countryCode = "" then "" else " in " ++ creds.countryCode) ++ ".") ++
  sayIf (creds.countryCode ≠ "" ∧ opts.countries ≠ [] ∧ creds.countryCode ∉ opts.countries)
    ("Country " ++ creds.countryCode ++ " is not in this device's regulatory list.") ++
  sayIf (creds.countryCode ≠ "" ∧ opts.countryMaxLen ≠ 0 ∧
      opts.countryMaxLen < Utf16.length creds.countryCode)
    ("Country code " ++ creds.countryCode ++ " cannot be set here ("
      ++ Nat.repr opts.countryMaxLen ++ " letters max).")

/-- `value || default` of numbers. -/
def orElseNat (value default : ℕ) : ℕ := if value = 0 then default else value

def meshCreds (m : Mesh) : MeshCredentials where
  meshId := m.meshId
  passphrase := m.passphrase
  encryption := m.encryption
  bandwidthMhz := m.bandwidthMhz
  channel := m.channel
  countryCode := m.countryCode

def meshOptions (m : Mesh) (status : GetSetupStatusResponse) : RadioOptions :=
  let entry := findCountryEntry status.countries m.countryCode
  { isHalow := true
    bandwidths := bandwidthsForCountry entry
    channels := channelsForCountryBandwidth entry m.bandwidthMhz
    countries := status.countries.map (·.code)
    countryMaxLen := 0 }

def backhaulCreds (ap : RadioAp) : MeshCredentials where
  meshId := ap.backhaulMeshId
  passphrase := ap.backhaulPassphrase
  encryption := .sae
  bandwidthMhz := orElseNat ap.backhaulBandwidthMhz 40
  channel := orElseNat ap.backhaulChannel 8
  countryCode := ap.backhaulCountryCode

def backhaulOptions : RadioOptions where
  isHalow := false
  bandwidths := backhaulBandwidths
  channels := backhaulChannels2G
  countries := []
  countryMaxLen := 0

/-- What a scanned code asks for that the node cannot accept. -/
def meshJoinIssues (s : State) (status : GetSetupStatusResponse) : List String :=
  (if s.mesh.fromScan then checkMeshCredentials (meshCreds s.mesh) (meshOptions s.mesh status)
    else []) ++
  s.aps.flatMap fun ap =>
    if ap.meshBackhaul && ap.backhaulFromScan then
      (checkMeshCredentials (backhaulCreds ap) backhaulOptions).map fun message =>
        ap.radioName ++ ": " ++ message
    else []

/-! ## The blockers -/

/-- The blockers of the first loop over the entries. -/
def backhaulBlockers (ap : RadioAp) : List String :=
  if ap.meshBackhaul then
    sayIf (ap.backhaulMeshId = "")
      ("Mesh backhaul on " ++ ap.radioName ++ " needs a mesh ID (Wi-Fi step).") ++
    sayIf (Utf16.length ap.backhaulPassphrase < 8)
      ("Mesh backhaul on " ++ ap.radioName
        ++ " needs a passphrase of at least 8 characters (Wi-Fi step).") ++
    sayIf (32 < Utf16.length ap.backhaulMeshId)
      ("Mesh backhaul on " ++ ap.radioName
        ++ " mesh ID must be 32 characters or fewer (Wi-Fi step).")
  else []

/-- The blocker of the second. -/
def tuningBlockers (ap : RadioAp) : List String :=
  if ap.meshBackhaul then
    sayIf (¬ (ap.backhaulChannel = 0 ↔ ap.backhaulBandwidthMhz = 0))
      ("Mesh backhaul on " ++ ap.radioName
        ++ ": set bandwidth and channel together or leave both at Default (Wi-Fi step).")
  else []

/-- `applyBlockers`: why the profile cannot be applied yet. -/
def applyBlockers (s : State) (status : GetSetupStatusResponse) : List String :=
  sayIf (s.hostname = "") "Hostname is empty (Step 1)." ++
  sayIf (s.mesh.radioName = "") "Mesh radio not selected (Step 2)." ++
  sayIf (s.mesh.meshId = "") "Mesh ID is empty (Step 2)." ++
  sayIf (s.mesh.countryCode = "") "Regulatory country not selected (Step 2)." ++
  (if Utf16.length s.adminPassword < 8 then
    ["Admin password must be at least 8 characters (Password step)."]
  else sayIf (s.adminPassword ≠ s.adminPasswordConfirm)
    "Admin password and confirmation do not match (Password step).") ++
  s.aps.flatMap backhaulBlockers ++
  s.aps.flatMap tuningBlockers ++
  (meshJoinIssues s status).map fun message => message ++ " (Step 2)."

/-! ## The profile -/

def backhaulToProto (ap : RadioAp) : MeshBackhaulProfile where
  meshId := ap.backhaulMeshId
  passphrase := ap.backhaulPassphrase
  bandwidthMhz := ap.backhaulBandwidthMhz
  channel := ap.backhaulChannel
  countryCode := ap.backhaulCountryCode

/-- The entry that is sent; a backhaul alone carries no credentials of an
access point. -/
def apToProto (ap : RadioAp) : RadioApProfile where
  radioName := ap.radioName
  enabled := ap.enabled
  ssid := if ap.enabled then ap.ssid else ""
  passphrase := if ap.enabled then ap.passphrase else ""
  encryption := if ap.enabled then ap.encryption else .sae
  meshBackhaul := if ap.meshBackhaul then some (backhaulToProto ap) else none

def meshToProto (m : Mesh) : MeshRadioConfig where
  radioName := m.radioName
  meshId := m.meshId
  passphrase := m.passphrase
  encryption := m.encryption
  bandwidthMhz := m.bandwidthMhz
  channel := m.channel
  countryCode := m.countryCode

def uplinkToProto (u : UplinkChoice) : Uplink where
  type := u.type
  ethernetPort := u.ethernetPort
  wireless := if u.type = .wirelessSta then some u.wireless else none

def profileToProto (s : State) : MeshNodeProfile where
  hostname := s.hostname
  adminPassword := s.adminPassword
  role := s.role
  deviceMode :=
    match s.role with
    | .meshPoint => .meshpoint s.meshpointMode
    | .meshGate => .meshgate s.meshgateMode
    | _ => .unset
  mesh := some (meshToProto s.mesh)
  uplink := if s.role = .meshGate then some (uplinkToProto s.uplink) else none
  aps := (s.aps.filter fun ap => ap.enabled || ap.meshBackhaul).map apToProto
  timezone := s.timezone

/-! ## What no blocker means -/

section Unblocked

variable {s : State} {status : GetSetupStatusResponse} {creds : MeshCredentials}
  {opts : RadioOptions}

/-- What the checks of a scanned mesh leave: its width and channel are ones
the radio can take, and its country is listed. -/
structure Acceptable (creds : MeshCredentials) (opts : RadioOptions) : Prop where
  width : creds.bandwidthMhz ∈ opts.widths
  channel : opts.channels ≠ [] → creds.channel ∈ opts.channels
  country : creds.countryCode ≠ "" → opts.countries ≠ [] → creds.countryCode ∈ opts.countries

theorem acceptable_of_check (h : checkMeshCredentials creds opts = []) : Acceptable creds opts := by
  unfold checkMeshCredentials at h
  simp only [List.append_eq_nil_iff, sayIf_eq_nil, not_and, not_not] at h
  obtain ⟨⟨⟨⟨-, hwidth⟩, hchannel⟩, hcountry⟩, -⟩ := h
  exact ⟨hwidth, hchannel hwidth, hcountry⟩

/-- **What no blocker means.** -/
structure Unblocked (s : State) (status : GetSetupStatusResponse) : Prop where
  radio : s.mesh.radioName ≠ ""
  country : s.mesh.countryCode ≠ ""
  password : 8 ≤ Utf16.length s.adminPassword
  together : ∀ ap ∈ s.aps, ap.meshBackhaul = true →
    (ap.backhaulChannel = 0 ↔ ap.backhaulBandwidthMhz = 0)
  scanned : s.mesh.fromScan = true → Acceptable (meshCreds s.mesh) (meshOptions s.mesh status)
  scannedBackhaul : ∀ ap ∈ s.aps, ap.meshBackhaul = true → ap.backhaulFromScan = true →
    Acceptable (backhaulCreds ap) backhaulOptions

theorem unblocked_of_blockers (h : applyBlockers s status = []) : Unblocked s status := by
  unfold applyBlockers at h
  simp only [List.append_eq_nil_iff, sayIf_eq_nil, List.flatMap_eq_nil_iff,
    List.map_eq_nil_iff] at h
  obtain ⟨⟨⟨⟨⟨⟨⟨-, hradio⟩, -⟩, hcountry⟩, hpassword⟩, -⟩, htuning⟩, hissues⟩ := h
  unfold meshJoinIssues at hissues
  simp only [List.append_eq_nil_iff, List.flatMap_eq_nil_iff] at hissues
  obtain ⟨hmesh, hbackhaul⟩ := hissues
  refine ⟨hradio, hcountry, ?_, fun ap hap hback => ?_, fun hscan => ?_, fun ap hap hback hscan => ?_⟩
  · split_ifs at hpassword with hshort
    exact Nat.le_of_not_lt hshort
  · have htogether := htuning ap hap
    rw [tuningBlockers, if_pos hback, sayIf_eq_nil, not_not] at htogether
    exact htogether
  · rw [if_pos hscan] at hmesh
    exact acceptable_of_check hmesh
  · have hcheck := hbackhaul ap hap
    rw [if_pos (by rw [hback, hscan]; rfl), List.map_eq_nil_iff] at hcheck
    exact acceptable_of_check hcheck

end Unblocked

end Wizard

end OpenManet
