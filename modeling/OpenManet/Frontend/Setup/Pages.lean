import OpenManet.Frontend.Setup.Review
import OpenManet.Frontend.Setup.Entries
import Mathlib.Logic.Relation
/-!
# The pages of the setup wizard

Which actions the pages dispatch, and what every state they lead to keeps.
A page dispatches what its controls offer, and its effects dispatch values
the controls offer too. The texts are free: a text longer than a field takes
can come from a scanned code and be edited there.

What the pages keep are the rules across fields that no check of the wizard
restates: a role has its mode, the mesh radio is a HaLow radio and the other
radios are not, each radio has one entry, and one entry at most is a
backhaul, which is no access point.
-/

namespace OpenManet

namespace Wizard

open Setup Network

/-! ## What the pages dispatch -/

/-- An edit of one field of an entry. -/
inductive ApEdit where
  | ssid (value : String)
  | encryption (value : WifiEncryption)
  | passphrase (value : String)
  | backhaulMeshId (value : String)
  | backhaulPassphrase (value : String)
  | backhaulBandwidthMhz (value : ℕ)
  | backhaulChannel (value : ℕ)
  | backhaulCountryCode (value : String)

/-- `setField`: an edit of the backhaul ends the hold on its scanned
values. -/
def ApEdit.apply (ap : RadioAp) : ApEdit → RadioAp
  | .ssid v => { ap with ssid := v }
  | .encryption v => { ap with encryption := v }
  | .passphrase v => { ap with passphrase := v }
  | .backhaulMeshId v => { ap with backhaulFromScan := false, backhaulMeshId := v }
  | .backhaulPassphrase v => { ap with backhaulFromScan := false, backhaulPassphrase := v }
  | .backhaulBandwidthMhz v => { ap with backhaulFromScan := false, backhaulBandwidthMhz := v }
  | .backhaulChannel v => { ap with backhaulFromScan := false, backhaulChannel := v }
  | .backhaulCountryCode v => { ap with backhaulFromScan := false, backhaulCountryCode := v }

def apEncryptionValues : List WifiEncryption := [.sae, .psk2, .saeMixed, .owe, .none]

def staEncryptionValues : List WifiEncryption := [.sae, .psk2, .pskMixed, .psk, .owe, .none]

/-- The edits the row of a radio offers in the mode it is in. -/
def ApEdit.Offered (status : GetSetupStatusResponse) (ap : RadioAp) : ApEdit → Prop
  | .ssid _ => ap.enabled = true ∧ ap.meshBackhaul = false
  | .encryption v => ap.enabled = true ∧ ap.meshBackhaul = false ∧ v ∈ apEncryptionValues
  | .passphrase _ => ap.enabled = true ∧ ap.meshBackhaul = false
  | .backhaulMeshId _ => ap.meshBackhaul = true
  | .backhaulPassphrase _ => ap.meshBackhaul = true
  | .backhaulBandwidthMhz v => ap.meshBackhaul = true ∧ v ∈ 0 :: backhaulBandwidths
  | .backhaulChannel v => ap.meshBackhaul = true ∧ v ∈ 0 :: backhaulChannels2G
  | .backhaulCountryCode v => ap.meshBackhaul = true ∧ v ∈ "" :: status.countries.map (·.code)

/-- A field of the mesh page with a value it offers. -/
def MeshField.Offered (status : GetSetupStatusResponse) (m : Mesh) : MeshField → Prop
  | .radioName v => ∃ r ∈ status.radios, r.isHalow = true ∧ r.name = v
  | .meshId _ => True
  | .passphrase _ => True
  | .bandwidthMhz v => v ∈ bandwidthsForCountry (findCountryEntry status.countries m.countryCode)
  | .channel v => v ∈ channelsForCountryBandwidth
      (findCountryEntry status.countries m.countryCode) m.bandwidthMhz
  | .countryCode v => v ∈ status.countries.map (·.code)

/-- A field of the wireless uplink with a value the page offers. -/
def StaField.Offered (status : GetSetupStatusResponse) : StaField → Prop
  | .radioName v => ∃ r ∈ status.radios, r.isHalow = false ∧ r.name = v
  | .ssid _ => True
  | .passphrase _ => True
  | .encryption v => v ∈ staEncryptionValues

/-- **What is dispatched** where the wizard stands in a state. -/
inductive Dispatches (status : GetSetupStatusResponse) (s : State) : Action → Prop
  /-- The status has come. -/
  | hydrated (browserTimezone : String) :
      Dispatches status s (.hydrateFromStatus status browserTimezone)
  /-- The identity page. -/
  | hostname (v : String) : Dispatches status s (.setHostname v)
  | timezone {v : String} : v ∈ status.timezones → Dispatches status s (.setTimezone v)
  | role {v : MeshRole} : v = .meshPoint ∨ v = .meshGate → Dispatches status s (.setRole v)
  /-- The mesh page. -/
  | meshField {f : MeshField} : f.Offered status s.mesh → Dispatches status s (.setMeshField f)
  | scanned (payload : MeshJoinPayload) :
      Dispatches status s (.applyMeshJoin payload status.radios)
  | gateMode {v : MeshGateMode} : s.role = .meshGate → v = .router ∨ v = .routerFirewall →
      Dispatches status s (.setMeshgateMode v)
  | pointMode : s.role = .meshPoint → Dispatches status s (.setMeshpointMode .extender)
  /-- The uplink page, which a gate has. -/
  | uplinkType {v : UplinkType} : s.role = .meshGate → v = .ethernet ∨ v = .wirelessSta →
      Dispatches status s (.setUplinkType v)
  | ethernetPort {v : String} : s.role = .meshGate → v ∈ status.ethernetPorts →
      Dispatches status s (.setUplinkField v)
  | staField {f : StaField} : s.role = .meshGate → f.Offered status →
      Dispatches status s (.setUplinkWireless f)
  /-- The page of the other radios. -/
  | radioMode {r : SetupRadio} {mode : RadioMode} : r ∈ status.radios → r.isHalow = false →
      (mode = .backhaul → r.supportsMeshBackhaul = true) →
      Dispatches status s (.setRadioMode r.name mode)
  | apField {r : SetupRadio} {e : ApEdit} : r ∈ status.radios → r.isHalow = false →
      e.Offered status (entryOf s.aps r.name) →
      Dispatches status s (.setAp (e.apply (entryOf s.aps r.name)))
  /-- The password page. -/
  | adminPassword (v : String) : Dispatches status s (.setAdminPassword v)
  | adminPasswordConfirm (v : String) : Dispatches status s (.setAdminPasswordConfirm v)

/-- One dispatch. -/
def Dispatched (status : GetSetupStatusResponse) (s s' : State) : Prop :=
  ∃ a, Dispatches status s a ∧ s' = reducer s a

/-- The states the pages lead to. -/
def Reachable (status : GetSetupStatusResponse) : State → Prop :=
  Relation.ReflTransGen (Dispatched status) initialState

/-! ## What every state keeps -/

/-- The entry is that of a radio that is not a HaLow radio, and a backhaul
only where the radio supports one, and then no access point. -/
structure EntryFits (status : GetSetupStatusResponse) (ap : RadioAp) : Prop where
  radio : ∃ r ∈ status.radios, r.isHalow = false ∧ r.name = ap.radioName ∧
    (ap.meshBackhaul = true → r.supportsMeshBackhaul = true)
  apart : ap.meshBackhaul = true → ap.enabled = false

/-- The entries fit, are of distinct radios, and one at most is a
backhaul. -/
structure EntriesFit (status : GetSetupStatusResponse) (aps : List RadioAp) : Prop where
  fits : ∀ ap ∈ aps, EntryFits status ap
  nodup : (aps.map (·.radioName)).Nodup
  single : ∀ ap ∈ aps, ∀ ap' ∈ aps, ap.meshBackhaul = true → ap'.meshBackhaul = true →
    ap.radioName = ap'.radioName

/-- **What every state keeps.** -/
structure Shaped (status : GetSetupStatusResponse) (s : State) : Prop where
  role : s.role = .meshPoint ∧ s.meshpointMode = .extender ∨
    s.role = .meshGate ∧ s.meshgateMode ≠ .unspecified ∧
      (s.meshpointMode = .unspecified ∨ s.meshpointMode = .extender)
  mesh : s.mesh.radioName ≠ "" →
    ∃ r ∈ status.radios, r.isHalow = true ∧ r.name = s.mesh.radioName
  sta : s.uplink.wireless.radioName ≠ "" →
    ∃ r ∈ status.radios, r.isHalow = false ∧ r.name = s.uplink.wireless.radioName
  entries : EntriesFit status s.aps

section Steps

variable {status : GetSetupStatusResponse} {s s' : State} {aps : List RadioAp} {r : SetupRadio}

theorem shaped_initialState : Shaped status initialState where
  role := .inl ⟨rfl, rfl⟩
  mesh := fun h => absurd rfl h
  sta := fun h => absurd rfl h
  entries := ⟨by simp [initialState], List.nodup_nil, by simp [initialState]⟩

theorem EntriesFit.apart (h : EntriesFit status aps) : EntriesApart aps where
  nodup := h.nodup
  single := h.single
  neither := fun ap hap => (h.fits ap hap).apart

/-- Entries apart fit where each has its radio. -/
theorem EntriesFit.of_apart (h : EntriesApart aps)
    (hradio : ∀ ap ∈ aps, ∃ r ∈ status.radios, r.isHalow = false ∧ r.name = ap.radioName ∧
      (ap.meshBackhaul = true → r.supportsMeshBackhaul = true)) : EntriesFit status aps where
  fits := fun ap hap => ⟨hradio ap hap, h.neither ap hap⟩
  nodup := h.nodup
  single := h.single

/-- An edit keeps the radio and what it is used for. -/
theorem ApEdit.apply_keeps (ap : RadioAp) (e : ApEdit) :
    (e.apply ap).radioName = ap.radioName ∧ (e.apply ap).enabled = ap.enabled ∧
      (e.apply ap).meshBackhaul = ap.meshBackhaul := by
  cases e <;> exact ⟨rfl, rfl, rfl⟩

/-- The entry a row sends says of the use of its radio what the entry in place
says. -/
theorem ApEdit.placed (e : ApEdit) (radioName : String) :
    Placed s (.setAp (e.apply (entryOf s.aps radioName))) := by
  obtain ⟨hname, hen, hback⟩ := ApEdit.apply_keeps (entryOf s.aps radioName) e
  have hentry : entryOf s.aps (e.apply (entryOf s.aps radioName)).radioName =
      entryOf s.aps radioName := by rw [hname, (entryOf_cases s.aps radioName).2]
  exact ⟨hen.trans (congrArg RadioAp.enabled hentry.symm),
    hback.trans (congrArg RadioAp.meshBackhaul hentry.symm)⟩

/-- **What the pages dispatch is well placed.** -/
theorem placed_of_dispatches {a : Action} (h : Dispatches status s a) : Placed s a := by
  cases h with
  | role hv => exact hv
  | gateMode hrole hv =>
      refine ⟨hrole, fun hunset => ?_⟩
      rcases hv with rfl | rfl
      · cases hunset
      · cases hunset
  | pointMode hrole => exact ⟨hrole, by decide⟩
  | uplinkType hrole _ => exact hrole
  | ethernetPort hrole _ => exact hrole
  | staField hrole _ => exact hrole
  | apField _ _ _ => exact ApEdit.placed _ _
  | hydrated _ => trivial
  | hostname _ => trivial
  | timezone _ => trivial
  | meshField _ => trivial
  | scanned _ => trivial
  | radioMode _ _ _ => trivial
  | adminPassword _ => trivial
  | adminPasswordConfirm _ => trivial

theorem EntriesFit.edited {e : ApEdit} (h : EntriesFit status s.aps) (hr : r ∈ status.radios)
    (hhalow : r.isHalow = false) :
    EntriesFit status (upsert (e.apply (entryOf s.aps r.name)) s.aps) := by
  have hplaced := ApEdit.placed (s := s) e r.name
  refine .of_apart (h.apart.edited hplaced.1 hplaced.2) fun a ha => ?_
  rcases mem_of_mem_upsert ha with rfl | ha
  · obtain ⟨hname, -, hback⟩ := ApEdit.apply_keeps (entryOf s.aps r.name) e
    rw [hname, hback]
    obtain ⟨hmem | hnew, hof⟩ := entryOf_cases s.aps r.name
    · exact (h.fits _ hmem).radio
    · rw [hnew] at hof ⊢
      exact ⟨r, hr, hhalow, rfl, fun hback => by cases hback⟩
  · exact (h.fits a ha).radio

theorem EntriesFit.setRadioMode {mode : RadioMode} (h : EntriesFit status s.aps)
    (hr : r ∈ status.radios) (hhalow : r.isHalow = false)
    (hsupports : mode = .backhaul → r.supportsMeshBackhaul = true) :
    EntriesFit status (setRadioMode s r.name mode).aps := by
  refine .of_apart (h.apart.setRadioMode mode) fun a ha => ?_
  rcases mem_of_mem_upsert ha with rfl | ha
  · exact ⟨r, hr, hhalow, (entryOf_cases s.aps r.name).2.symm,
      fun hback => hsupports (of_decide_eq_true hback)⟩
  · obtain ⟨ap, hap, rfl⟩ := List.mem_map.1 ha
    obtain ⟨r', hr', hhalow', hname, hsupports'⟩ := (h.fits ap hap).radio
    split_ifs
    · exact ⟨r', hr', hhalow', hname, fun hback => by cases hback⟩
    · exact ⟨r', hr', hhalow', hname, hsupports'⟩

theorem EntriesFit.joined {target : SetupRadio} {h₁ b : MeshCredentials}
    (h : EntriesFit status aps) (hr : target ∈ status.radios) (hhalow : target.isHalow = false)
    (hsupports : target.supportsMeshBackhaul = true) :
    EntriesFit status ((aps.filter fun ap => ap.radioName ≠ target.name).map RadioAp.clearBackhaul
      ++ [joinBackhaul (entryOf aps target.name) h₁ b]) := by
  refine .of_apart (h.apart.joined target.name h₁ b) fun a ha => ?_
  rcases List.mem_append.1 ha with ha | ha
  · obtain ⟨ap, hap, rfl⟩ := List.mem_map.1 ha
    obtain ⟨r, hr', hhalow', hname, -⟩ := (h.fits ap (List.mem_of_mem_filter hap)).radio
    exact ⟨r, hr', hhalow', hname, fun hback => by cases hback⟩
  · obtain rfl := List.mem_singleton.1 ha
    exact ⟨target, hr, hhalow, (entryOf_cases aps target.name).2.symm, fun _ => hsupports⟩

theorem Shaped.hydrate (h : Shaped status s) (browserTimezone : String) :
    Shaped status (hydrate s status browserTimezone) := by
  refine ⟨h.role, fun hne => ?_, h.sta, h.entries⟩
  unfold Wizard.hydrate at hne ⊢
  dsimp only at hne ⊢
  cases hfind : status.radios.find? (·.isHalow) with
  | none =>
      rw [hfind] at hne
      exact h.mesh hne
  | some r => exact ⟨r, List.mem_of_find?_eq_some hfind, List.find?_some hfind, rfl⟩

theorem Shaped.setRole {role : MeshRole} (h : Shaped status s)
    (hrole : role = .meshPoint ∨ role = .meshGate) : Shaped status (setRole s role) := by
  rcases hrole with rfl | rfl
  · refine ⟨.inl ⟨rfl, ?_⟩, h.mesh, fun hne => absurd rfl hne, h.entries⟩
    show (if s.meshpointMode = .unspecified then _ else s.meshpointMode) = _
    split_ifs with hmode
    · rfl
    · rcases h.role with ⟨-, hextender⟩ | ⟨-, -, hextender⟩
      · exact hextender
      · exact hextender.resolve_left hmode
  · refine ⟨.inr ⟨rfl, ?_, .inl rfl⟩, h.mesh, h.sta, h.entries⟩
    show (if s.meshgateMode = .unspecified then _ else s.meshgateMode) ≠ _
    split_ifs with hmode
    · decide
    · exact hmode

theorem Shaped.setMeshField {f : MeshField} (h : Shaped status s) (hf : f.Offered status s.mesh) :
    Shaped status { s with mesh := f.set s.mesh } := by
  refine ⟨h.role, ?_, h.sta, h.entries⟩
  cases f with
  | radioName v => exact fun _ => hf
  | meshId v => exact h.mesh
  | passphrase v => exact h.mesh
  | bandwidthMhz v => exact h.mesh
  | channel v => exact h.mesh
  | countryCode v => exact h.mesh

theorem Shaped.setUplinkWireless {f : StaField} (h : Shaped status s) (hf : f.Offered status) :
    Shaped status
      { s with uplink := { s.uplink with wireless := f.set s.uplink.wireless } } := by
  refine ⟨h.role, h.mesh, ?_, h.entries⟩
  cases f with
  | radioName v => exact fun _ => hf
  | ssid v => exact h.sta
  | passphrase v => exact h.sta
  | encryption v => exact h.sta

theorem Shaped.applyMeshJoin (h : Shaped status s) (payload : MeshJoinPayload) :
    Shaped status (applyMeshJoin s payload status.radios) := by
  unfold Wizard.applyMeshJoin
  cases payload.backhaul with
  | none => exact ⟨h.role, h.mesh, h.sta, h.entries⟩
  | some b =>
      cases htarget : backhaulTarget s status.radios with
      | none => exact ⟨h.role, h.mesh, h.sta, h.entries⟩
      | some target =>
          have hgood := List.find?_some htarget
          simp only [Bool.and_eq_true, Bool.not_eq_true'] at hgood
          exact ⟨h.role, h.mesh, h.sta, h.entries.joined (List.mem_of_find?_eq_some htarget)
            hgood.1.2 hgood.1.1⟩

/-- **One dispatch keeps the shape.** -/
theorem Shaped.step (h : Shaped status s) (hstep : Dispatched status s s') : Shaped status s' := by
  obtain ⟨a, ha, rfl⟩ := hstep
  cases ha with
  | hydrated browserTimezone => exact h.hydrate browserTimezone
  | hostname v => exact ⟨h.role, h.mesh, h.sta, h.entries⟩
  | timezone _ => exact ⟨h.role, h.mesh, h.sta, h.entries⟩
  | role hv => exact h.setRole hv
  | meshField hf => exact h.setMeshField hf
  | scanned payload => exact h.applyMeshJoin payload
  | gateMode hrole hv =>
      refine ⟨.inr ⟨hrole, ?_, ?_⟩, h.mesh, h.sta, h.entries⟩
      · intro hunset
        rcases hv with rfl | rfl
        · cases hunset
        · cases hunset
      · rcases h.role with ⟨hpoint, -⟩ | ⟨-, -, hmode⟩
        · rw [hpoint] at hrole
          cases hrole
        · exact hmode
  | pointMode hrole => exact ⟨.inl ⟨hrole, rfl⟩, h.mesh, h.sta, h.entries⟩
  | uplinkType _ _ => exact ⟨h.role, h.mesh, h.sta, h.entries⟩
  | ethernetPort _ _ => exact ⟨h.role, h.mesh, h.sta, h.entries⟩
  | staField _ hf => exact h.setUplinkWireless hf
  | radioMode hr hhalow hsupports =>
      exact ⟨h.role, h.mesh, h.sta, h.entries.setRadioMode hr hhalow hsupports⟩
  | apField hr hhalow _ => exact ⟨h.role, h.mesh, h.sta, h.entries.edited hr hhalow⟩
  | adminPassword v => exact ⟨h.role, h.mesh, h.sta, h.entries⟩
  | adminPasswordConfirm v => exact ⟨h.role, h.mesh, h.sta, h.entries⟩

/-- **Every state the pages lead to has the shape.** -/
theorem shaped_of_reachable (h : Reachable status s) : Shaped status s := by
  induction h with
  | refl => exact shaped_initialState
  | tail _ hstep ih => exact ih.step hstep

end Steps

end Wizard

end OpenManet
