import OpenManet.Network.RegDB
import OpenManet.Setup.Checks
import OpenManet.Setup.Retry
import OpenManet.Lib.Uci.Saves
/-!
# The setup status

What a node tells the setup wizard of itself: its radios, its ethernet
ports, its zones and the countries of its regulatory database. The first
phase of an apply asks the same sources again, so what it says of a radio is
what the status said, as long as the wireless config is the same; only the
hardware behind a radio is looked up anew.
-/

namespace OpenManet

namespace Setup

open Uci Fallible Network

/-- What reading the regulatory database gives. -/
inductive RegTable where
  | notInstalled
  | broken (text : String)
  | installed (db : DB)

def RegTable.regDB : RegTable → RegDB
  | .notInstalled => .notInstalled
  | .broken text => .broken text
  | .installed db => .installed db.isLegalChannel

/-- The countries the status lists; none where the database cannot be
read. -/
def RegTable.countries : RegTable → List Country
  | .installed db => db.countries
  | _ => []

/-- A node: its service, with the tables the service reads. -/
structure Node where
  service : Service
  /-- `tzinfo.Names`. -/
  zoneNames : List String
  table : RegTable
  known : ∀ zone, zone ∈ zoneNames ↔ (service.posixTZ zone).isSome = true
  regDB : service.regDB = table.regDB

structure GetSetupStatusResponse where
  currentHostname : String
  radios : List SetupRadio
  ethernetPorts : List String
  timezones : List String
  currentTimezone : String
  countries : List Country
  currentCountry : String

structure UCISystem where
  hostname : String := ""
  zonename : String := ""

/-- The system config; empty when it cannot be read. -/
def currentSystemConfig : Prog UCISystem := do
  match ← attempt firstSystemSection with
  | .error _ => pure {}
  | .ok s => do
      let t ← tree
      pure { hostname := firstValue t "system" s "hostname",
             zonename := firstValue t "system" s "zonename" }

/-- The country of the first HaLow radio, empty when there is none. -/
def currentMorseCountry : Prog String := do
  match ← attempt (getSections "wireless" "wifi-device") with
  | .error _ => pure ""
  | .ok names => do
      let t ← tree
      match names.find? (isMorseDevice t) with
      | some name => pure (toUpper (firstValue t "wireless" name "country"))
      | none => pure ""

def Node.getSetupStatus (n : Node) : Prog GetSetupStatusResponse := do
  let sysCfg ← currentSystemConfig
  let radios ← n.service.collectSetupRadios
  let currentCountry ← currentMorseCountry
  pure { currentHostname := sysCfg.hostname, radios := radios,
         ethernetPorts := n.service.collectEthernetPorts, timezones := n.zoneNames,
         currentTimezone := sysCfg.zonename, countries := n.table.countries,
         currentCountry := currentCountry }

/-- The service at another time: what the live interfaces report is asked
for again. -/
def Service.seeing (S : Service) (hardware : String → Option String) : Service :=
  { S with radioHardware := hardware }

/-! ## The inventory -/

section Inventory

variable {S : Service} {g g' : Host} {t : Tree} {r : SetupRadio} {name : String}

/-- The radio is one of the config's, and marked as the config says. -/
structure Inventoried (t : Tree) (r : SetupRadio) : Prop where
  listed : r.name ∈ radioRefs t
  halow : r.isHalow = radioExistsAsMorse t r.name
  candidate : r.supportsMeshBackhaul = true → isSecondaryMeshCandidate t r.name = true

theorem ne_empty_of_mem_radioRefs (h : name ∈ radioRefs t) : name ≠ "" := by
  unfold radioRefs radios at h
  cases hmem : t.mem "wireless" with
  | none => simp [hmem] at h
  | some c =>
      rw [← radios, ← radioRefs, radioRefs_of_mem hmem] at h
      exact Uci.Config.ne_empty_of_mem_refs h

theorem isMorseDevice_firstValue (t : Tree) (name : String) :
    isMorseDevice t name = Text.equalFold (firstValue t "wireless" name "type") "morse" := by
  unfold isMorseDevice firstValue
  cases t.get "wireless" name "type" with
  | nil => decide
  | cons v vs => rfl

theorem inventoried_setupRadio {any : Bool} (h : name ∈ radioRefs t) :
    Inventoried t (S.setupRadio t any name) := by
  refine ⟨h, ?_, fun hsupports => ?_⟩
  · show Text.equalFold (firstValue t "wireless" name "type") "morse" = _
    unfold radioExistsAsMorse
    rw [isMorseDevice_firstValue]
    have hne : decide ((S.setupRadio t any name).name ≠ "") = true :=
      decide_eq_true (ne_empty_of_mem_radioRefs h)
    rw [hne, Bool.true_and]
    rfl
  · unfold Service.setupRadio at hsupports ⊢
    dsimp only at hsupports ⊢
    cases hhw : S.radioHardware name with
    | none => simp [hhw] at hsupports
    | some hw =>
        rw [hhw] at hsupports
        exact (Bool.and_eq_true_iff.1 hsupports).1

/-- The radios can be listed. -/
def Listable (g : Host) : Bool := Fallible.succeeds (getSections "wireless" "wifi-device") g

/-- **The inventory is the radios of the config**, or nothing. -/
theorem collectSetupRadios_eq (S : Service) (g : Host) :
    ∃ any g', g'.tree = g.tree ∧ S.collectSetupRadios g =
      .ok (if Listable g then (radioRefs g.tree).map (S.setupRadio g.tree any) else []) g' := by
  obtain ⟨r, hattempt⟩ := attempt_run (getSections "wireless" "wifi-device") g
  have htree : (final (getSections "wireless" "wifi-device") g).tree = g.tree :=
    reads_getSections g
  have hread : Leaves (getSections "wireless" "wifi-device") g fun l _ => l = radioRefs g.tree :=
    leaves_getSections fun c _ hmem => (radioRefs_of_mem hmem).symm
  unfold Service.collectSetupRadios
  rw [bind_of_ok hattempt]
  unfold attempt at hattempt
  unfold Listable Fallible.succeeds
  cases hlist : getSections "wireless" "wifi-device" g with
  | error e g₁ =>
      rw [hlist] at hattempt
      obtain ⟨rfl, -⟩ := EStateM.Result.ok.inj hattempt
      exact ⟨false, _, htree, rfl⟩
  | ok names g₁ =>
      rw [hlist] at hattempt
      obtain ⟨rfl, -⟩ := EStateM.Result.ok.inj hattempt
      obtain rfl := hread _ _ hlist
      refine ⟨(radioRefs g.tree).any (isSecondaryMeshCandidate g.tree),
        final (getSections "wireless" "wifi-device") g, htree, ?_⟩
      rw [if_pos rfl, ← htree]
      rfl

theorem reads_currentSystemConfig : Within Reads currentSystemConfig := by
  refine within_bind (within_attempt reads_firstSystemSection) fun r => ?_
  split
  · exact within_pure _
  · exact within_bind within_tree fun _ => within_pure _

/-- **What the status says of the node**: its radios are the config's, and
the rest is the tables'. -/
theorem getSetupStatus_says {n : Node} {status : GetSetupStatusResponse}
    (h : n.getSetupStatus g = .ok status g') :
    (∀ r ∈ status.radios, Inventoried g.tree r) ∧ status.timezones = n.zoneNames ∧
      status.countries = n.table.countries := by
  obtain ⟨sysCfg, g₁, hsys, hrest⟩ := bind_eq_ok.1 h
  have hsame : g₁.tree = g.tree := reads_currentSystemConfig.ok hsys
  obtain ⟨any, g₂, -, hcollect⟩ := collectSetupRadios_eq n.service g₁
  rw [bind_of_ok hcollect, hsame] at hrest
  obtain ⟨country, g₃, -, hpure⟩ := bind_eq_ok.1 hrest
  obtain ⟨rfl, -⟩ := EStateM.Result.ok.inj hpure
  refine ⟨fun r hr => ?_, rfl, rfl⟩
  dsimp only at hr
  split_ifs at hr
  · obtain ⟨name, hname, rfl⟩ := List.mem_map.1 hr
    exact inventoried_setupRadio hname
  · cases hr

/-- **When a radio is taken for a backhaul**: the radios can be listed, it is
one of them that could carry the link, and its hardware is a chipset the
link is run on. -/
theorem radioSupportsMeshBackhaul_eq (S : Service) (g : Host) (name : String) :
    ∃ g', S.radioSupportsMeshBackhaul name g = .ok (Listable g && decide (name ∈ radioRefs g.tree)
      && isSecondaryMeshCandidate g.tree name
      && (S.radioHardware name).any supportsSecondaryMeshLink) g' := by
  obtain ⟨any, g', -, hcollect⟩ := collectSetupRadios_eq S g
  refine ⟨g', ?_⟩
  unfold Service.radioSupportsMeshBackhaul
  rw [bind_of_ok hcollect]
  show EStateM.Result.ok _ _ = _
  congr 1
  cases hlist : Listable g with
  | false => simp
  | true =>
      have hfind : ((radioRefs g.tree).map (S.setupRadio g.tree any)).find? (fun r => r.name = name)
          = if name ∈ radioRefs g.tree then some (S.setupRadio g.tree any name) else none := by
        induction radioRefs g.tree with
        | nil => rfl
        | cons x xs ih =>
            rw [List.map_cons, List.find?_cons]
            have hx : (S.setupRadio g.tree any x).name = x := rfl
            rw [hx, ih]
            by_cases hsame : x = name
            · simp [hsame]
            · have hsame' : name ≠ x := fun h => hsame h.symm
              simp [hsame, hsame']
      rw [if_pos rfl, hfind]
      by_cases hname : name ∈ radioRefs g.tree
      · rw [if_pos hname, decide_eq_true hname]
        unfold Service.setupRadio
        cases hhw : S.radioHardware name with
        | none => simp
        | some hw => simp
      · simp [hname]

end Inventory

end Setup

end OpenManet
