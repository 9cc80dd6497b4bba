import OpenManet.Network.MeshLink
import OpenManet.Lib.Uci.Saves
/-!
# The boot-time backhaul

At boot the daemon sets up the secondary mesh link on the one 2.4 GHz radio
with a supported chipset, unless it is marked as done or the radio's
`default_` section is an enabled access point. The credentials are those of
the first mesh interface of the wireless config.

The two readers of the program have a tree each; the configs they read and
write are different, and one tree holds both. The reload that follows a
success runs a command, and its result is dropped.
-/

namespace OpenManet

namespace Mgmt

open Uci Fallible Network

/-! ## The marker -/

/-- `strconv.Atoi`. -/
def atoi (s : String) : Except String ℤ :=
  let (negative, digits) :=
    match s.toList with
    | '-' :: rest => (true, rest)
    | '+' :: rest => (false, rest)
    | chars => (false, chars)
  let value : ℤ := Nat.ofDigitChars 10 digits 0
  let signed := if negative then -value else value
  if digits = [] ∨ ¬ digits.all Char.isDigit then
    .error ("strconv.Atoi: parsing \"" ++ s ++ "\": invalid syntax")
  else if signed < -9223372036854775808 ∨ 9223372036854775808 ≤ signed then
    .error ("strconv.Atoi: parsing \"" ++ s ++ "\": value out of range")
  else .ok signed

/-- `IsBatMesh1ConfiguredWithReader`. -/
def isBatMesh1Configured (t : Tree) : Except String Bool :=
  let value := (t.get "openmanetd" "config" "batmesh1configured").head?.getD ""
  if value = "0" ∨ value = "" then .ok false
  else
    match atoi value with
    | .error e => .error ("invalid batmesh1configured value: " ++ e)
    | .ok configured => .ok (configured = 1)

/-- `SetBatMesh1ConfiguredWithReader`. -/
def setBatMesh1Configured : Prog Unit := do
  ignored (addSection "openmanetd" "config" "openmanet")
  saying "failed to set batmesh1configured"
    (setType "openmanetd" "config" "batmesh1configured" ["1"])
  saying "failed to commit OpenMANET config" commit

/-! ## The radio -/

/-- What the runtime tells of the radios. -/
structure Radios where
  /-- The hardware name of a running interface; none where there is no entry. -/
  iwinfo : Except String (String → Option String)
  /-- The interfaces that run on a radio; none where there is no entry. -/
  status : Except String (String → Option (List String))

/-- The first hardware name reported for an interface of the radio. -/
def resolveWirelessRadioHardwareName (radioName : String) (status : String → Option (List String))
    (iwinfoData : String → Option String) : String :=
  match status radioName with
  | none => ""
  | some ifnames => ((ifnames.filterMap iwinfoData).find? (· ≠ "")).getD ""

/-- The radio could carry the link. -/
def candidate (c : Uci.Config) (status : String → Option (List String))
    (iwinfoData : String → Option String) (name : String) : Bool :=
  (getWirelessDeviceByName c name).band = "2g" &&
    supportsSecondaryMeshLink (resolveWirelessRadioHardwareName name status iwinfoData)

/-- The walk over the radios: it gives up at the second candidate. -/
def pickRadio (fits : String → Bool) : List String → Option String → Option String
  | [], radioSection => radioSection
  | name :: rest, radioSection =>
      if fits name then
        match radioSection with
        | some _ => none
        | none => pickRadio fits rest (some name)
      else pickRadio fits rest radioSection

/-- The radio's access point is enabled: the section the factory image and
the wizard name after the radio. -/
def radioHostsEnabledAP (c : Uci.Config) (radio : String) : Bool :=
  let iface := getWirelessIfaceByName c ("default_" ++ radio)
  iface.mode = "ap" && iface.disabled ≠ "1"

/-- The first mesh interface, in file order. -/
def firstMesh (c : Uci.Config) (ifaces : List String) : Option UCIWirelessIface :=
  (ifaces.map (getWirelessIfaceByName c)).find? fun iface => iface.mode = wifiModeMesh

/-! ## The routine -/

/-- The wireless config as it is in memory. -/
def wireless : Prog Uci.Config := do
  let t ← tree
  pure ((t.mem "wireless").getD Uci.Config.empty)

/-- Up to the choice of the link: none where the routine has nothing to
do. -/
def chooseLink (w : Radios) : Prog (Option MeshLink) := do
  match isBatMesh1Configured (← tree), w.iwinfo, w.status with
  | .error e, _, _ => fail ("check batmesh1 configured: " ++ e)
  | .ok true, _, _ => pure none
  | .ok false, .error e, _ => fail ("get iwinfo for all devices: " ++ e)
  | .ok false, .ok _, .error _ => pure none
  | .ok false, .ok allInfo, .ok status => do
      let deviceSections ← saying "get wifi-device sections"
        (getSections "wireless" "wifi-device")
      let c ← wireless
      match pickRadio (candidate c status allInfo) deviceSections none with
      | none => pure none
      | some radioSection =>
          if radioHostsEnabledAP c radioSection then pure none
          else do
            let ifaceSections ← saying "get wifi-iface sections"
              (getSections "wireless" "wifi-iface")
            let iface := (firstMesh c ifaceSections).getD {}
            if iface.meshID = "" then
              fail "no existing wifi-iface with mode=mesh found; cannot determine mesh credentials"
            else
              pure (some
                { radio := radioSection
                  network := batmanSecondaryIface
                  meshID := iface.meshID
                  key := iface.key
                  rssiThreshold := secondaryMeshRSSIThreshold })

/-- What the radio of the link is set to. -/
def radioUpdate : UCIWirelessDevice :=
  { channel := secondaryMeshChannel2G, htMode := secondaryMeshHTMode2G, disabled := "0" }

/-- The interface of the link is written and committed, then enabled and
committed with its radio. -/
def writeLink (link : MeshLink) : Prog Unit := do
  saying ("create wifi-iface " ++ link.section)
    (setWirelessIfaceConfig link.section link.ifaceConfig)
  saying ("clear disabled on " ++ link.section) (del "wireless" link.section "disabled")
  saying ("update wifi-device " ++ link.radio) (setWirelessDeviceConfig link.radio radioUpdate)

def setupBatMesh1InterfaceWithDeps (w : Radios) : Prog Unit := do
  match ← chooseLink w with
  | none => pure ()
  | some link => do
      writeLink link
      saying "mark batmesh1 configured" setBatMesh1Configured

/-! ## When it writes -/

/-- The walk finds the one candidate. -/
theorem pickRadio_eq (fits : String → Bool) (l : List String) :
    (∀ r, pickRadio fits l none = some r ↔ l.filter fits = [r]) ∧
      ∀ r r', pickRadio fits l (some r) = some r' ↔ r = r' ∧ l.filter fits = [] := by
  induction l with
  | nil => simp [pickRadio]
  | cons a l ih =>
      obtain ⟨hnone, hsome⟩ := ih
      by_cases ha : fits a = true
      · simp [pickRadio, ha, hsome]
      · simp [pickRadio, ha, hnone, hsome]

/-- **The routine gets to the link**: it is not marked as done, the runtime
answers, one 2.4 GHz radio has a supported chipset, its access point is not
enabled, and the first mesh interface has a mesh id. -/
structure Proceeds (w : Radios) (t : Tree) (c : Uci.Config) (radio : String)
    (mesh : UCIWirelessIface) : Prop where
  unmarked : isBatMesh1Configured t = .ok false
  sole : ∃ allInfo status, w.iwinfo = .ok allInfo ∧ w.status = .ok status ∧
    (c.refs "wifi-device").filter (candidate c status allInfo) = [radio]
  free : radioHostsEnabledAP c radio = false
  first : firstMesh c (c.refs "wifi-iface") = some mesh
  named : mesh.meshID ≠ ""

/-- The link that is written. -/
def linkOf (radio : String) (mesh : UCIWirelessIface) : MeshLink where
  radio := radio
  network := batmanSecondaryIface
  meshID := mesh.meshID
  key := mesh.key
  rssiThreshold := secondaryMeshRSSIThreshold

section Chooses

variable {w : Radios} {h : Host} {c : Uci.Config} {radio : String} {mesh : UCIWirelessIface}

theorem wireless_run (hs : Held "wireless" c h) : wireless h = .ok c h := by
  show EStateM.Result.ok ((h.tree.mem "wireless").getD Uci.Config.empty) h = .ok c h
  rw [hs.mem]
  rfl

theorem guards_wireless : Within (Guards "wireless" c) wireless :=
  within_bind within_tree fun _ => within_pure _

theorem guards_getSections {type : String} :
    Within (Guards "wireless" c) (getSections "wireless" type) :=
  guards_of_edits (within_getSections : Within (Edits [] []) _) List.not_mem_nil

/-- The choice leaves the config alone. -/
theorem guards_chooseLink (w : Radios) : Within (Guards "wireless" c) (chooseLink w) := by
  refine within_bind within_tree fun t => ?_
  split
  · exact within_fail
  · exact within_pure _
  · exact within_fail
  · exact within_pure _
  · refine within_bind (within_saying guards_getSections) fun devices => ?_
    refine within_bind guards_wireless fun c' => ?_
    split
    · exact within_pure _
    · refine within_ite (within_pure _) ?_
      refine within_bind (within_saying guards_getSections) fun ifaces => ?_
      exact within_ite within_fail (within_pure _)

theorem chooseLink_ends (hs : Held "wireless" c h) (hp : Proceeds w h.tree c radio mesh) :
    Ends "wireless" (chooseLink w) h
      (fun r h' => r = some (linkOf radio mesh) ∧ Held "wireless" c h') (· = c) := by
  obtain ⟨allInfo, status, hinfo, hstatus, hsole⟩ := hp.sole
  have hpick : pickRadio (candidate c status allInfo) (c.refs "wifi-device") none = some radio :=
    ((pickRadio_eq _ _).1 radio).2 hsole
  have htree : Ends "wireless" tree h (fun t h' => t = h.tree ∧ Held "wireless" c h') (· = c) :=
    ⟨⟨rfl, hs⟩, rfl⟩
  have hread : ∀ h', Held "wireless" c h' →
      Ends "wireless" wireless h' (fun c' h'' => c' = c ∧ Held "wireless" c h'') (· = c) := by
    intro h' hs'
    unfold Ends
    rw [wireless_run hs']
    exact ⟨⟨rfl, hs'⟩, rfl⟩
  refine htree.bind fun t h₁ ht => ?_
  obtain ⟨rfl, hs₁⟩ := ht
  rw [hp.unmarked, hinfo, hstatus]
  refine (hs₁.ends_getSections "wifi-device").saying.bind fun devices h₂ hdevices => ?_
  obtain ⟨rfl, hs₂⟩ := hdevices
  refine (hread h₂ hs₂).bind fun c' h₃ hc' => ?_
  obtain ⟨rfl, hs₃⟩ := hc'
  simp only [hpick, hp.free, Bool.false_eq_true, if_false]
  refine (hs₃.ends_getSections "wifi-iface").saying.bind fun ifaces h₄ hifaces => ?_
  obtain ⟨rfl, hs₄⟩ := hifaces
  simp only [hp.first, Option.getD_some, if_neg hp.named]
  exact ends_pure ⟨rfl, hs₄⟩

/-- Otherwise nothing is chosen. -/
theorem chooseLink_leaves (hs : Held "wireless" c h)
    (hp : ∀ radio mesh, ¬ Proceeds w h.tree c radio mesh) :
    Leaves (chooseLink w) h fun r _ => r = none := by
  unfold chooseLink
  rw [leaves_bind, leaves_tree]
  split
  · exact leaves_fail.2 trivial
  · exact (leaves_pure _).2 rfl
  · exact leaves_fail.2 trivial
  · exact (leaves_pure _).2 rfl
  · next allInfo status hmark hinfo hstatus =>
    rw [leaves_bind, leaves_saying]
    refine leaves_getSections fun c₁ tick hmem => ?_
    obtain rfl : c₁ = c := Option.some.inj (hmem.symm.trans hs.mem)
    rw [leaves_bind]
    intro c₂ h₂ hrun
    rw [wireless_run (hs.tick tick)] at hrun
    obtain ⟨rfl, rfl⟩ := EStateM.Result.ok.inj hrun
    split
    · exact (leaves_pure _).2 rfl
    · next radio hpick =>
      rw [leaves_ite]
      refine ⟨fun _ => (leaves_pure _).2 rfl, fun hfree => ?_⟩
      rw [leaves_bind, leaves_saying]
      refine leaves_getSections fun c₃ tick' hmem' => ?_
      obtain rfl : c₃ = c₁ := Option.some.inj (hmem'.symm.trans hs.mem)
      rw [leaves_ite]
      refine ⟨fun _ => leaves_fail.2 trivial, fun hnamed => ?_⟩
      exfalso
      cases hfirst : firstMesh c₃ (c₃.refs "wifi-iface") with
      | none => simp [hfirst] at hnamed
      | some mesh =>
          refine hp radio mesh ⟨hmark, ⟨allInfo, status, hinfo, hstatus, ?_⟩, ?_, hfirst, ?_⟩
          · exact ((pickRadio_eq _ _).1 radio).1 hpick
          · simpa using hfree
          · simpa [hfirst] using hnamed

end Chooses

/-! ## What it writes -/

/-- The options of the link's interface, in write order. -/
def linkWrites (link : MeshLink) : List (String × String) :=
  written (ifaceOptionFields link.ifaceConfig)

/-- The config with the interface of the link. -/
def linked (c : Uci.Config) (link : MeshLink) : Uci.Config :=
  (c.ensure link.section "wifi-iface").writes link.section (linkWrites link)

/-- The config with the link in service. -/
def inService (c : Uci.Config) (link : MeshLink) : Uci.Config :=
  (((linked c link).update link.section fun o => o.erase "disabled").ensure link.radio
    "wifi-device").writes link.radio (written (deviceOptionFields radioUpdate))

end Mgmt

end OpenManet
