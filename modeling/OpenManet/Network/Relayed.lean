import OpenManet.Network.Zones
/-!
# Helpers that fail only where a call does

The helpers of the setup wizard over the network, wireless and service
configs. Given names that are not empty, none of them gives up on its own
account but those that look for a zone.
-/

namespace OpenManet

namespace Network

open Uci Fallible

variable {h : Host} {n : String}

/-! ## Wireless -/

theorem relays_whitelistFields {config ref : String} {options allowList : List String} :
    Relays (whitelistFields config ref options allowList) h :=
  relays_forM fun _ _ => relays_ite (fun _ => relays_pure _) fun _ => relays_tree_bind <|
    relays_ite (fun _ => relays_saying relays_del) fun _ => relays_pure _

/-- The addresses that are listed are not empty. -/
theorem leaves_listed {config type : String} (h : Host) :
    Leaves (getSections config type) h fun l h' => h'.tree = h.tree ∧
      ∀ ref ∈ l, ref ≠ "" := by
  refine leaves_getSections fun c tick _ => ⟨rfl, fun ref href => ?_⟩
  obtain ⟨e, -, -, rfl⟩ := Config.mem_refs.1 href
  exact ownRef_ne_empty e

theorem relays_removeNonMeshIfacesOnMorseDevices :
    Relays removeNonMeshIfacesOnMorseDevices h :=
  relays_bind (relays_saying relays_getSections) fun _ _ => relays_tree_bind <|
    relays_ite (fun _ => relays_pure _) fun _ =>
      relays_bind (relays_saying relays_getSections) fun _ _ => relays_forM fun _ _ =>
        relays_tree_bind <| relays_ite (fun _ => relays_saying relays_delSection)
          fun _ => relays_pure _

theorem relays_disableAllInterfaces : Relays disableAllInterfaces h :=
  relays_bind (relays_saying relays_getSections) fun _ _ => relays_forM fun _ _ =>
    relays_saying relays_setType

/-! ## Interfaces and devices -/

theorem relays_batmanInterfaceExists : Relays (batmanInterfaceExists n) h := by
  refine relays_bind relays_attempt fun r _ => ?_
  cases r <;> exact relays_pure _

theorem relays_ensureInterface {what : String} : Relays (ensureInterface n what) h :=
  relays_bind relays_batmanInterfaceExists fun _ _ =>
    relays_ite (fun _ => relays_pure _) fun _ => relays_saying relays_addSection

theorem relays_deleteSections {config type what : String} {doomed : Tree → String → Bool} :
    Relays (deleteSections config type what doomed) h :=
  relays_bind (relays_saying relays_getSections) fun _ _ => relays_forM fun _ _ =>
    relays_tree_bind <| relays_ite (fun _ => relays_saying relays_delSection) fun _ => relays_pure _

theorem relays_unsetGatewayAndDeviceOnInterfaces :
    Relays unsetGatewayAndDeviceOnInterfaces h :=
  relays_bind (relays_saying relays_getSections) fun _ _ => relays_forM fun _ _ =>
    relays_tree_bind <| relays_ite (fun _ => relays_pure _) fun _ =>
      relays_bind (relays_saying relays_del) fun _ _ => relays_saying relays_del

theorem relays_findBridgeBySectionName : Relays (findBridgeBySectionName n) h :=
  relays_bind (relays_saying relays_getSections) fun _ _ => relays_tree_bind (relays_pure _)

theorem relays_findDeviceByName : Relays (findDeviceByName n) h :=
  relays_bind (relays_saying relays_getSections) fun _ _ => relays_tree_bind (relays_pure _)

theorem relays_createBridgeDevice {ports : List String} {macaddr : String} (hne : n ≠ "") :
    Relays (createBridgeDevice n ports macaddr) h := by
  unfold createBridgeDevice
  rw [if_neg hne]
  exact relays_bind relays_findBridgeBySectionName fun _ _ =>
    relays_bind (relays_onlyIf fun _ => relays_saying relays_addSection) fun _ _ =>
      relays_bind (relays_saying relays_setType) fun _ _ =>
        relays_bind (relays_saying relays_setType) fun _ _ =>
          relays_bind (relays_onlyIf fun _ => relays_saying relays_setType) fun _ _ =>
            relays_bind (relays_onlyIf fun _ => relays_saying relays_setType) fun _ _ =>
              relays_pure _

theorem relays_appendBridgePort {port : String} (hne : n ≠ "") (hport : port ≠ "") :
    Relays (appendBridgePort n port) h := by
  unfold appendBridgePort
  rw [if_neg hne, if_neg hport]
  exact relays_tree_bind <| relays_ite (fun _ => relays_pure _) fun _ => relays_setType

theorem relays_setDeviceMTU {mtu : Nat} (hne : n ≠ "") (hmtu : minDeviceMTU ≤ mtu) :
    Relays (setDeviceMTU n mtu) h := by
  unfold setDeviceMTU
  rw [if_neg hne, if_neg (Nat.not_lt_of_le hmtu)]
  exact relays_bind relays_findDeviceByName fun _ _ =>
    relays_bind (relays_onlyIf fun _ => relays_bind (relays_saying relays_addSection) fun _ _ =>
      relays_saying relays_setType) fun _ _ =>
        relays_bind (relays_saying relays_setType) fun _ _ => relays_pure _

theorem relays_unsetDeviceMTU {deviceNames : List String} : Relays (unsetDeviceMTU deviceNames) h := by
  refine relays_bind (relays_saying relays_getSections) fun _ _ =>
    relays_bind (relays_forM fun s _ => ?_) fun _ _ => relays_deleteSections
  refine relays_ite (fun _ => relays_pure _) fun _ => relays_tree_bind ?_
  split
  · exact relays_ite (fun _ => relays_saying relays_del) fun _ => relays_pure _
  · exact relays_pure _

theorem relays_setInterfaceDevice {device : String} (hne : n ≠ "") (hdevice : device ≠ "") :
    Relays (setInterfaceDevice n device) h := by
  unfold setInterfaceDevice
  rw [if_neg (not_or.2 ⟨hne, hdevice⟩)]
  exact relays_saying relays_setType

theorem relays_ensureUplinkInterface {proto : String} : Relays (ensureUplinkInterface n proto) h :=
  relays_bind relays_ensureInterface fun _ _ => relays_setType

theorem relays_setupAhwlanInterface {ipaddr : String} : Relays (setupAhwlanInterface ipaddr) h :=
  relays_bind relays_ensureInterface fun _ _ => relays_bind relays_setOptions fun _ _ =>
    relays_bind (relays_saying relays_setType) fun _ _ => relays_ite (fun _ => relays_pure _)
      fun _ => relays_bind (relays_saying relays_setType) fun _ _ => relays_saying relays_setType

theorem relays_setupBatmanDeviceOnNetwork {gwMode multicastMode : String} :
    Relays (setupBatmanDeviceOnNetwork gwMode n multicastMode) h :=
  relays_bind relays_ensureInterface fun _ _ => relays_setOptions

theorem relays_setupBatmanInterfaceOnDevice : Relays (setupBatmanInterfaceOnDevice n) h :=
  relays_forM fun _ _ => relays_bind relays_ensureInterface fun _ _ => relays_setOptions

/-! ## Firewall -/

theorem relays_removeAllRules : Relays removeAllRules h :=
  relays_bind (relays_saying relays_getSections) fun _ _ => relays_forM fun _ _ =>
    relays_saying relays_delSection

theorem relays_whitelistAndDisableForwardings : Relays whitelistAndDisableForwardings h :=
  relays_bind (relays_saying relays_getSections) fun _ _ => relays_forM fun _ _ =>
    relays_saying relays_setType

theorem relays_unsetMtuFixAndMasq : Relays unsetMtuFixAndMasq h :=
  relays_bind (relays_saying relays_getSections) fun _ _ => relays_forM fun _ _ =>
    relays_bind (relays_saying relays_del) fun _ _ => relays_saying relays_del

theorem relays_getOrCreateForwarding {src dest name : String} {natOnDest : Bool} (hsrc : src ≠ "")
    (hdest : dest ≠ "") : Relays (getOrCreateForwarding src dest name natOnDest) h := by
  unfold getOrCreateForwarding
  rw [if_neg (not_or.2 ⟨hsrc, hdest⟩)]
  refine relays_bind (relays_saying relays_getSections) fun sections _ => relays_tree_bind ?_
  split
  · exact relays_pure _
  · refine relays_bind ?_ fun _ _ => relays_bind ?_ fun _ _ => relays_tree_bind ?_
    · exact relays_bind relays_zoneSectionByName fun _ _ => relays_ite (fun _ => relays_pure _)
        fun _ => relays_bind relays_setType fun _ _ =>
          relays_ite (fun _ => relays_setType) fun _ => relays_pure _
    · exact relays_forM fun _ _ => relays_tree_bind <|
        relays_ite (fun _ => relays_setType) fun _ => relays_pure _
    split
    · exact relays_bind (relays_saying relays_del) fun _ _ => relays_pure _
    · exact relays_bind (relays_saying relays_addSection) fun _ _ =>
        relays_bind relays_setType fun _ _ => relays_bind relays_setType fun _ _ => relays_pure _

/-- **A zone's option is set** where a zone bears the name. -/
theorem relays_setZoneOption {key value : String} (hne : n ≠ "")
    (hnamed : zoneNamed h.tree n = true) : Relays (setZoneOption n key value) h := by
  unfold setZoneOption
  rw [if_neg hne]
  refine relays_then relays_zoneSectionByName (leaves_zoneSectionByName h) ?_
  rintro r h' ⟨-, hfound⟩
  rw [if_neg (hfound.2 hnamed)]
  exact relays_setType

theorem relays_appendZoneNetwork {networkName : String} (hne : n ≠ "") (hnet : networkName ≠ "")
    (hnamed : zoneNamed h.tree n = true) : Relays (appendZoneNetwork n networkName) h := by
  unfold appendZoneNetwork
  rw [if_neg hne, if_neg hnet]
  refine relays_then relays_zoneSectionByName (leaves_zoneSectionByName h) ?_
  rintro r h' ⟨-, hfound⟩
  rw [if_neg (hfound.2 hnamed)]
  exact relays_tree_bind <| relays_ite (fun _ => relays_pure _) fun _ => relays_setType

theorem relays_addDefaultWanFirewallRules (hne : n ≠ "") :
    Relays (addDefaultWanFirewallRules n) h := by
  unfold addDefaultWanFirewallRules
  rw [if_neg hne]
  exact relays_forM fun _ _ => relays_saying <|
    relays_bind (relays_saying relays_getSections) fun _ _ =>
      relays_bind (relays_saying relays_addSection) fun _ _ =>
        relays_forM fun _ _ => relays_saying relays_setType

/-! ## Pools -/

theorem relays_backfillPoolOptions {networkID : String} {extraOptions : List (String × List String)}
    {start : Nat} : Relays (backfillPoolOptions n networkID extraOptions start) h := by
  have hfill : ∀ option value h, Relays (backfill n option value) h := fun _ _ _ =>
    relays_tree_bind <| relays_ite (fun _ => relays_pure _) fun _ => relays_saying relays_setType
  exact relays_bind (hfill _ _ _) fun _ _ => relays_bind (hfill _ _ _) fun _ _ =>
    relays_bind (hfill _ _ _) fun _ _ => relays_bind relays_setOptions fun _ _ =>
      relays_forM fun _ _ => relays_saying relays_setType

/-- A pool's name is in use where a section bears it. -/
theorem tests_poolNameTaken {t : Tree} (hn : Plain n) (hne : n ≠ "") :
    Tests poolNameTaken n t fun name => t.found "dhcp" name where
  relays := fun _ _ _ => relays_tree_bind <| relays_ite (fun _ => relays_pure _) fun _ =>
    relays_bind (relays_saying relays_getSections) fun _ _ => relays_pure _
  leaves := by
    rintro k h rfl
    obtain ⟨hk, hke⟩ := plain_numbered hn hne k
    unfold poolNameTaken
    rw [leaves_bind, leaves_tree, leaves_ite, leaves_pure]
    refine ⟨fun hyes => ⟨rfl, hyes.symm⟩, fun hno => ?_⟩
    rw [leaves_bind, leaves_saying]
    refine leaves_getSections fun c tick hmem => (leaves_pure _).2 ⟨rfl, ?_⟩
    rw [Bool.not_eq_true] at hno
    rw [hno, Bool.eq_false_iff]
    intro hin
    obtain ⟨s, hfind, -⟩ := (Config.name_mem_refs_iff hk hke).1 (by simpa using hin)
    rw [Tree.found, hmem] at hno
    simp [hfind] at hno

theorem relays_getOrCreateDhcpPool {extraOptions : List (String × List String)} {start : Nat}
    (hn : Plain n) (hne : n ≠ "") : Relays (getOrCreateDhcpPool n extraOptions start) h := by
  unfold getOrCreateDhcpPool
  rw [if_neg hne]
  refine relays_bind (relays_saying relays_getSections) fun _ h₁ => relays_tree_bind ?_
  dsimp only
  split
  · exact relays_bind relays_backfillPoolOptions fun _ _ => relays_pure _
  split
  · exact relays_bind (relays_forM fun _ _ => relays_saying relays_del) fun _ _ =>
      relays_bind relays_backfillPoolOptions fun _ _ => relays_pure _
  unfold createDhcpPool
  rw [if_neg hne]
  refine relays_tree_bind (relays_bind ?_ fun _ _ =>
    relays_bind (relays_saying relays_addSection) fun _ _ =>
      relays_bind relays_backfillPoolOptions fun _ _ => relays_pure _)
  have hused : ∀ k, h₁.tree.found "dhcp" (numbered n k) = true →
      numbered n k ∈ (((h₁.tree.mem "dhcp").getD Config.empty).sections.map Section.name) := by
    intro k hfound
    obtain ⟨hk, hke⟩ := plain_numbered hn hne k
    unfold Tree.found at hfound
    cases hmem : h₁.tree.mem "dhcp" with
    | none => simp [hmem] at hfound
    | some c =>
        rw [hmem] at hfound
        obtain ⟨s, hfind⟩ := Option.isSome_iff_exists.1 hfound
        obtain ⟨hs, hname⟩ := (Config.find_eq_some_iff hk hke).1 hfind
        exact List.mem_map.2 ⟨s, hs, hname⟩
  refine relays_firstFree (tests_poolNameTaken hn hne) hused
    (fun _ hk => absurd hk (Nat.not_lt_zero _)) ?_ rfl
  rw [List.length_map, sectionCount]
  cases h₁.tree.mem "dhcp" with
  | none => simp [Config.empty]
  | some c => simp

theorem relays_whitelistAndIgnoreAllPools : Relays whitelistAndIgnoreAllPools h :=
  relays_bind (relays_saying relays_getSections) fun _ _ => relays_forM fun _ _ =>
    relays_bind relays_whitelistFields fun _ _ => relays_saying relays_setType

theorem relays_whitelistDnsmasqSurvivors : Relays whitelistDnsmasqSurvivors h := by
  unfold whitelistDnsmasqSurvivors
  refine relays_then (relays_saying relays_getSections) (leaves_saying.2 (leaves_listed h)) ?_
  rintro sections h₁ ⟨-, hsections⟩
  -- the survivors are among the addresses that were listed
  have hsurvive : ∀ (l survivors : List String) (h : Host), (∀ s ∈ l, s ≠ "") →
      (∀ s ∈ survivors, s ≠ "") → Leaves (l.foldlM (fun survivors s => do
        if dnsmasqIsScoped (← tree) s then do
          saying ("removing scoped dnsmasq " ++ s) (delSection "dhcp" s)
          pure survivors
        else pure (survivors ++ [s])) survivors) h fun r _ => ∀ s ∈ r, s ≠ "" := by
    intro l
    induction l with
    | nil => exact fun survivors h _ hold => (leaves_pure _).2 hold
    | cons a l ih =>
        intro survivors h hl hold
        have hrest := fun s hs => hl s (List.mem_cons_of_mem a hs)
        rw [List.foldlM_cons, leaves_bind, leaves_bind, leaves_tree, leaves_ite]
        refine ⟨fun _ => ?_, fun _ => ?_⟩
        · exact leaves_after fun _ h' => (leaves_pure _).2 (ih survivors h' hrest hold)
        · refine (leaves_pure _).2 (ih _ h hrest fun s hs => ?_)
          rcases List.mem_append.1 hs with hs | hs
          · exact hold s hs
          · rw [List.mem_singleton.1 hs]
            exact hl a (List.mem_cons_self ..)
  refine relays_then (relays_foldlM fun _ _ _ => ?_)
    (hsurvive sections [] h₁ hsections fun _ hno => absurd hno List.not_mem_nil) ?_
  · exact relays_tree_bind <| relays_ite (fun _ => relays_bind (relays_saying relays_delSection)
      fun _ _ => relays_pure _) fun _ => relays_pure _
  · intro survivors h₂ hnamed
    refine relays_ite (fun _ => relays_forM fun _ _ => relays_saying relays_delSection) fun _ =>
      relays_forM_of_mem fun s hs _ => relays_saying ?_
    unfold whitelistDnsmasqSurvivor
    rw [if_neg (hnamed s hs)]
    exact relays_whitelistFields

/-! ## System, umdns and mesh11sd -/

/-- The system config has a section to write to. -/
def SystemListed (t : Tree) : Prop := ∃ c, t.mem "system" = some c ∧ c.refs "system" ≠ []

theorem systemListed_congr {t t' : Tree} (h : t'.mem "system" = t.mem "system") :
    SystemListed t' ↔ SystemListed t := by rw [SystemListed, SystemListed, h]

/-- The listing finds it. -/
theorem leaves_systemSections (hsystem : SystemListed h.tree) :
    Leaves (saying "listing system sections" (getSections "system" "system")) h
      fun l _ => l ≠ [] := by
  obtain ⟨c, hmem, hlisted⟩ := hsystem
  refine leaves_saying.2 (leaves_getSections fun c' _ hmem' => ?_)
  rwa [← Option.some.inj (hmem.symm.trans hmem')]

theorem relays_firstSystemSection (hsystem : SystemListed h.tree) :
    Relays firstSystemSection h := by
  refine relays_then (relays_saying relays_getSections) (leaves_systemSections hsystem)
    fun l h' hne => ?_
  cases l with
  | nil => exact absurd rfl hne
  | cons s l => exact relays_pure _

theorem leaves_firstSystemSection (h : Host) :
    Leaves firstSystemSection h fun _ _ => SystemListed h.tree := by
  unfold firstSystemSection
  rw [leaves_bind, leaves_saying]
  refine leaves_getSections fun c tick hmem => ?_
  cases hlist : c.refs "system" with
  | nil => exact leaves_fail.2 trivial
  | cons s l =>
      refine (leaves_pure _).2 ⟨c, hmem, ?_⟩
      rw [hlist]
      exact List.cons_ne_nil _ _

theorem relays_stageSystemHostname {hostname : String} (hne : hostname ≠ "")
    (hsystem : SystemListed h.tree) : Relays (stageSystemHostname hostname) h := by
  unfold stageSystemHostname
  rw [if_neg hne]
  exact relays_bind (relays_firstSystemSection hsystem) fun _ _ => relays_setOptions

theorem relays_stageSystemTimezone {zonename posixTZ : String} (hne : zonename ≠ "")
    (hposix : posixTZ ≠ "") (hsystem : SystemListed h.tree) :
    Relays (stageSystemTimezone zonename posixTZ) h := by
  unfold stageSystemTimezone
  rw [if_neg (not_or.2 ⟨hne, hposix⟩)]
  exact relays_bind (relays_firstSystemSection hsystem) fun _ _ => relays_setOptions

theorem relays_stageUmdnsNetworks {networks : List String} (hne : networks ≠ []) :
    Relays (stageUmdnsNetworks networks) h := by
  unfold stageUmdnsNetworks
  rw [if_neg hne]
  have hmake : ∀ h, Relays (do
      saying "creating umdns section" (addSection "umdns" "wizard_umdns" "umdns")
      saying "setting umdns network list" (setType "umdns" "wizard_umdns" "network" networks)) h :=
    fun _ => relays_bind (relays_saying relays_addSection) fun _ _ => relays_saying relays_setType
  refine relays_bind_of relays_attempt fun r h' hok => ?_
  cases r with
  | error e =>
      refine relays_ite (fun _ => hmake _) fun _ => ?_
      have hraised : Raised e := by
        unfold attempt at hok
        cases hrun : getSections "umdns" "umdns" h with
        | ok l t => simp [hrun] at hok
        | error e' t =>
            rw [hrun] at hok
            obtain rfl : e' = e := by simpa using (EStateM.Result.ok.inj hok).1
            exact relays_getSections _ _ hrun
      intro e' h'' herr
      obtain ⟨rfl, -⟩ := EStateM.Result.error.inj herr
      exact hraised.said "listing umdns sections"
  | ok l =>
      cases l with
      | nil => exact hmake _
      | cons s l => exact relays_saying relays_setType

theorem relays_setMesh11sd {sectionName option value : String} (hvalue : value = "0" ∨ value = "1") :
    Relays (setMesh11sd sectionName option value) h := by
  unfold setMesh11sd
  rw [if_neg (fun hno => hvalue.elim hno.1 hno.2)]
  exact relays_saying relays_setType

end Network

end OpenManet
