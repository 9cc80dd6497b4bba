import OpenManet.Network.Bridges
import OpenManet.Setup.Credentials
/-!
# Where the ethernet ports go

The wizard gives every detected port to the mesh bridge, or binds it to the
interface that leads upstream. What it is given may stand in the way: the
walk that deletes the old bridges passes some of them over, and a bridge that
gets no ports of its own keeps those its section had.
-/

namespace OpenManet

namespace Setup

open Uci Fallible Network

variable {S : Service} {W : World} {p : MeshNodeProfile}

/-! ## After the reset -/

/-- The tree once the old bridges were walked over. -/
def swept (t : Tree) : Tree :=
  match t.mem "network" with
  | some c => t.stage "network" (sweep c)
  | none => t

theorem swept_mem (t : Tree) : (swept t).mem "network" = (t.mem "network").map sweep := by
  unfold swept
  cases hmem : t.mem "network" with
  | none => exact hmem
  | some c => exact Tree.stage_mem _ _ _

theorem section_of_swept_bridge {t : Tree} {x : Bridge} (hx : x ∈ bridges (swept t)) :
    x.sectionName = "" := by
  unfold swept at hx
  cases hmem : t.mem "network" with
  | none =>
      simp only [hmem, bridges] at hx
      cases hx
  | some c =>
      rw [hmem] at hx
      rw [bridges_of_mem (Tree.stage_mem _ _ _)] at hx
      exact section_of_swept hx

theorem standing_congr {t t' : Tree} (n : String) (h : t'.mem "network" = t.mem "network") :
    standing n t' = standing n t := standing_eq (kind_congr h) fun _ => get_congr h

theorem stalePorts_congr {name : String} {t t' : Tree} (hbr : bridges t' = bridges t)
    (hsec : staleSection name t' = staleSection name t) :
    stalePorts name t' = stalePorts name t := by
  unfold stalePorts
  rw [hbr]
  cases (bridges t).find? (Bridge.isCalled name) with
  | some x => rfl
  | none => exact hsec

/-- **What the reset leaves** of the bridges and of the interface `lan`. -/
theorem leaves_resetInterfaces (h : Host) :
    Leaves S.resetInterfaces h fun _ h' => bridges h'.tree = bridges (swept h.tree) ∧
      stalePorts "br-ahwlan" h'.tree = stalePorts "br-ahwlan" (swept h.tree) ∧
      Freed "lan" (swept h.tree) h'.tree := by
  have hlan : Plain "lan" ∧ "lan" ≠ "" := by decide
  obtain ⟨hplain, hne⟩ := plain_wizardBridge "br-ahwlan"
  unfold Service.resetInterfaces
  rw [leaves_bind]
  refine (leaves_removeAllBridgeDevices h).mono ?_
  rintro _ h₁ ⟨c, hmem, hmem₁⟩
  have hsame : h₁.tree.mem "network" = (swept h.tree).mem "network" := by
    rw [hmem₁, swept, hmem]
    exact (Tree.stage_mem _ _ _).symm
  have hbr₁ : bridges h₁.tree = bridges (swept h.tree) := by rw [bridges, bridges, hsame]
  have hanon : ∀ x ∈ bridges h₁.tree, x.sectionName = "" := by
    intro x hx
    rw [hbr₁] at hx
    exact section_of_swept_bridge hx
  rw [leaves_bind]
  intro _ h₂ hmtu
  have hbr₂ := bridges_unsetDeviceMTU _ h₁ hanon _ _ hmtu
  have hlan₂ : standing "lan" h₂.tree = standing "lan" h₁.tree :=
    (steady_unsetDeviceMTU hlan.1 hlan.2 (by decide) _).ok hmtu
  have hwiz₂ : standing (wizardBridge "br-ahwlan") h₂.tree
      = standing (wizardBridge "br-ahwlan") h₁.tree :=
    (steady_unsetDeviceMTU hplain hne (by decide +kernel) _).ok hmtu
  rw [leaves_bind]
  intro _ h₃ hbat
  obtain ⟨hbr₃, hlan₃⟩ := batadv_reset hlan.1 hlan.2 h₂ _ _ hbat
  obtain ⟨-, hwiz₃⟩ := batadv_reset hplain hne h₂ _ _ hbat
  rw [standing_congr "lan" hsame] at hlan₂
  rw [standing_congr (wizardBridge "br-ahwlan") hsame] at hwiz₂
  intro _ h₄ hunset
  obtain ⟨hbr₄, hfreed⟩ := leaves_unsetGatewayAndDevice hlan.1 hlan.2 h₃ _ _ hunset
  have hbr : bridges h₄.tree = bridges (swept h.tree) :=
    hbr₄.trans (hbr₃.trans (hbr₂.trans hbr₁))
  refine ⟨hbr, stalePorts_congr hbr ?_, ?_⟩
  · have hkind : h₄.tree.kind "network" (wizardBridge "br-ahwlan")
        = h₃.tree.kind "network" (wizardBridge "br-ahwlan") :=
      (kind_unsetGatewayAndDevice (wizardBridge "br-ahwlan")).ok hunset
    have hports : h₄.tree.get "network" (wizardBridge "br-ahwlan") "ports"
        = h₃.tree.get "network" (wizardBridge "br-ahwlan") "ports" :=
      (ports_unsetGatewayAndDevice (wizardBridge "br-ahwlan")).ok hunset
    rw [staleSection, staleSection, hkind, hports]
    simp only [standing, Prod.mk.injEq] at hwiz₂ hwiz₃
    rcases hwiz₃ with hsame₃ | ⟨hiface, hgone⟩
    · rw [hsame₃.1, hsame₃.2.2, hwiz₂.1, hwiz₂.2.2]
    · rw [hgone, ← hwiz₂.1, hiface, if_neg (by decide), if_neg (by decide)]
  · simp only [standing, Prod.mk.injEq] at hlan₂ hlan₃
    unfold Freed at hfreed ⊢
    rcases hlan₃ with hsame₃ | ⟨hiface, hgone⟩
    · rwa [hsame₃.1, hsame₃.2.1, hlan₂.1, hlan₂.2.1] at hfreed
    · rw [← hlan₂.1, if_pos hiface]
      rw [if_neg (by rw [hgone]; decide), Tree.get_of_kind hgone] at hfreed
      rw [hfreed]
      exact .inl rfl

/-! ## The new bridge and the uplink -/

/-- The interfaces that lead upstream. -/
def uplinkIfaces : ScenarioKind → List String
  | .meshGateRouterFirewallEth => ["wan", "wan6"]
  | _ => ["lan"]

/-- The upstream connection is an ethernet port. -/
def ScenarioKind.wiredUplink : ScenarioKind → Bool
  | .meshGateRouterEth | .meshGateRouterFirewallEth => true
  | _ => false

/-- The interfaces that lead upstream have the uplink port, where it is one;
otherwise `lan` has the device it had. -/
def Led (S : Service) (p : MeshNodeProfile) (scenario : ScenarioKind) (t t' : Tree) : Prop :=
  (scenario.wiredUplink = true → ∀ n ∈ uplinkIfaces scenario,
      t'.get "network" n "device" = [S.resolveUplinkPort p]) ∧
    (scenario.wiredUplink = false → t'.get "network" "lan" "device" = t.get "network" "lan" "device")

theorem led_of_lan {scenario : ScenarioKind} {t t' : Tree} (hno : scenario.wiredUplink = false)
    (h : t'.get "network" "lan" "device" = t.get "network" "lan" "device") :
    Led S p scenario t t' := by
  refine ⟨fun hyes => ?_, fun _ => h⟩
  rw [hno] at hyes
  cases hyes

theorem leaves_applyScenarioUplinkBinding (scenario : ScenarioKind) (h : Host) :
    Leaves (S.applyScenarioUplinkBinding p scenario) h fun _ h' =>
      bridges h'.tree = bridges h.tree ∧ Led S p scenario h.tree h'.tree := by
  have hproto : ∀ n proto g, Leaves (setInterfaceProto n proto) g fun _ g' => Wired.rel g g' :=
    fun _ _ _ _ _ hrun => (wired_setType (by decide)).ok hrun
  have hensure : ∀ n proto g, Leaves (ensureUplinkInterface n proto) g fun _ g' => Wired.rel g g' :=
    fun _ _ _ _ _ hrun => wired_ensureUplinkInterface.ok hrun
  cases scenario with
  | meshGateRouterEth =>
      unfold Service.applyScenarioUplinkBinding
      rw [leaves_bind, leaves_saying]
      refine (hproto _ _ h).mono fun _ h₁ hw₁ => ?_
      rw [leaves_bind, leaves_saying]
      refine (leaves_setInterfaceDevice h₁).mono fun _ h₂ hset => ?_
      rw [leaves_saying]
      refine (hensure _ _ h₂).mono fun _ h₃ hw₃ => ?_
      refine ⟨hw₃.1.trans (hset.1.trans hw₁.1), fun _ n hn => ?_, fun hno => nomatch hno⟩
      obtain rfl := List.mem_singleton.1 hn
      exact (hw₃.2.1 "lan" (by decide)).trans hset.2.1
  | meshGateRouterFirewallEth =>
      unfold Service.applyScenarioUplinkBinding
      rw [leaves_bind, leaves_saying]
      refine (hensure _ _ h).mono fun _ h₁ hw₁ => ?_
      rw [leaves_bind, leaves_saying]
      refine (hensure _ _ h₁).mono fun _ h₂ hw₂ => ?_
      rw [leaves_bind, leaves_saying]
      refine (leaves_setInterfaceDevice h₂).mono fun _ h₃ hwan => ?_
      rw [leaves_saying]
      refine (leaves_setInterfaceDevice h₃).mono fun _ h₄ hwan6 => ?_
      refine ⟨hwan6.1.trans (hwan.1.trans (hw₂.1.trans hw₁.1)), fun _ n hn => ?_, fun hno => nomatch hno⟩
      simp only [uplinkIfaces, List.mem_cons, List.not_mem_nil, or_false] at hn
      rcases hn with rfl | rfl
      · exact (hwan6.2.2 "wan" (by decide) (by decide) (by decide)).trans hwan.2.1
      · exact hwan6.2.1
  | meshGateRouterWifiSta =>
      unfold Service.applyScenarioUplinkBinding
      rw [leaves_saying]
      exact (hproto _ _ h).mono fun _ h₁ hw₁ => ⟨hw₁.1, led_of_lan rfl (hw₁.2.1 "lan" (by decide))⟩
  | meshPointExtender => exact (leaves_pure _).2 ⟨rfl, led_of_lan rfl rfl⟩
  | meshPointNone => exact (leaves_pure _).2 ⟨rfl, led_of_lan rfl rfl⟩

/-- The ports the new bridge starts with: those chosen for it, or where there
are none the ones its section had. -/
def startPorts (S : Service) (p : MeshNodeProfile) (scenario : ScenarioKind) (t : Tree) :
    List String :=
  if S.ethernetPortsForAhwlan p scenario = [] then stalePorts "br-ahwlan" t
  else S.ethernetPortsForAhwlan p scenario

/-- The MTUs change no bridge. -/
theorem bridges_stageTransportMTU {ports : List String} {h : Host}
    (hsec : ∀ x ∈ bridges h.tree, x.sectionName = "" ∨ x.sectionName = wizardBridge "br-ahwlan") :
    Leaves (stageTransportMTU ports) h fun _ h' => bridges h'.tree = bridges h.tree := by
  have hno : ∀ name, ∀ x ∈ bridges h.tree,
      x.sectionName ≠ wizardDeviceSectionPrefix ++ sanitizeUCIName name := by
    intro name x hx heq
    have hchars := congrArg (fun s => s.toList.take 8) heq
    rw [wizardDeviceSectionPrefix, String.toList_append] at hchars
    rw [List.take_append_of_le_length (by decide)] at hchars
    rcases hsec x hx with hx | hx
    · rw [hx] at hchars
      exact absurd hchars (by decide)
    · rw [hx, wizardBridge, String.toList_append, List.take_append_of_le_length (by decide)] at hchars
      exact absurd hchars (by decide)
  unfold stageTransportMTU
  rw [leaves_bind, leaves_saying]
  refine (bridges_setDeviceMTU (hno _)).mono fun _ h₁ hfirst => ?_
  have hround : ∀ (port : String) (l : List String) (g : Host), bridges g.tree = bridges h.tree →
      Leaves (do
        let _ ← saying ("stage " ++ port ++ " mtu") (setDeviceMTU port defaultEthernetMTU)
        pure ()) g fun _ g' => bridges g'.tree = bridges h.tree := by
    intro port l g hg
    rw [leaves_bind, leaves_saying]
    refine (bridges_setDeviceMTU (by rw [hg]; exact hno port)).mono fun _ g' hg' => ?_
    rw [leaves_pure, hg', hg]
  exact leaves_forM (I := fun _ g => bridges g.tree = bridges h.tree) hround ports h₁ hfirst

theorem looks_device_stageTransportMTU (n : String) {ports : List String} :
    Within (Looks fun t => t.get "network" n "device") (stageTransportMTU ports) :=
  within_bind (within_saying looks_device_setDeviceMTU) fun _ => within_forM fun _ =>
    within_bind (within_saying looks_device_setDeviceMTU) fun _ => within_pure _

/-- **What the base network makes** of the bridges and the uplink. -/
theorem leaves_baseNetwork {h : Host} (hanon : ∀ x ∈ bridges h.tree, x.sectionName = "") :
    Leaves (S.baseNetwork p) h fun _ h' => ∃ scenario, classifyScenario p = .ok scenario ∧
      Built "br-ahwlan" (startPorts S p scenario h.tree) (bridges h.tree) (bridges h'.tree) ∧
      Led S p scenario h.tree h'.tree := by
  have hscen : Leaves (scenarioOf p) h fun scenario h' => h' = h ∧
      classifyScenario p = .ok scenario := by
    unfold scenarioOf
    cases classifyScenario p with
    | ok scenario => exact (leaves_pure _).2 ⟨rfl, rfl⟩
    | error text => exact leaves_fail.2 trivial
  have hip : Within (Edits [] []) (S.ahwlanIPaddr p) := within_ahwlanIPaddr
  have hudns : Within (Edits ["umdns"] ["umdns"]) (stageUmdnsNetworks ["lan", "ahwlan"]) :=
    within_stageUmdnsNetworks (by decide) (by decide)
  unfold Service.baseNetwork
  rw [leaves_bind]
  refine hscen.mono fun scenario h₀ hscenario => ?_
  obtain ⟨rfl, hclass⟩ : h = h₀ ∧ _ := ⟨hscenario.1.symm, hscenario.2⟩
  rw [leaves_bind]
  intro ip h₁ hrun₁
  rw [leaves_bind, leaves_saying]
  intro _ h₂ hrun₂
  rw [leaves_bind, leaves_saying]
  intro _ h₃ hrun₃
  have hw₃ : Wired.rel h h₃ := Wired.trans (Wired.trans ((wired_of_edits hip (by decide)).ok hrun₁)
    (wired_setupAhwlanInterface.ok hrun₂)) ((wired_of_edits hudns (by decide)).ok hrun₃)
  have hstale : stalePorts "br-ahwlan" h₃.tree = stalePorts "br-ahwlan" h.tree :=
    stalePorts_congr hw₃.1 (hw₃.2.2 _)
  rw [leaves_bind, leaves_saying]
  intro _ h₄ hrun₄
  have hbuilt := leaves_createBridgeDevice (by rw [hw₃.1]; exact hanon) _ _ hrun₄
  have hdev₄ : ∀ n, h₄.tree.get "network" n "device" = h₃.tree.get "network" n "device" := fun n =>
    looks_device_createBridge.ok hrun₄
  rw [hw₃.1, hstale] at hbuilt
  have hsec : ∀ x ∈ bridges h₄.tree, x.sectionName = "" ∨ x.sectionName = wizardBridge "br-ahwlan" := by
    obtain ⟨pre, x, post, hnew, hrest, -, hx, -, -⟩ := hbuilt
    intro y hy
    rw [hnew, List.mem_append, List.mem_cons] at hy
    have hold : y ∈ pre ++ post → y.sectionName = "" := by
      intro hin
      rw [hrest] at hin
      exact hanon y (List.mem_of_mem_eraseP hin)
    rcases hy with hy | rfl | hy
    · exact .inl (hold (List.mem_append_left _ hy))
    · exact hx
    · exact .inl (hold (List.mem_append_right _ hy))
  rw [leaves_bind]
  intro _ h₅ hrun₅
  have hbr₅ := bridges_stageTransportMTU hsec _ _ hrun₅
  have hdev₅ : ∀ n, h₅.tree.get "network" n "device" = h₄.tree.get "network" n "device" := fun n =>
    (looks_device_stageTransportMTU n).ok hrun₅
  rw [leaves_bind, leaves_saying]
  intro _ h₆ hrun₆
  have hw₆ : Wired.rel h₅ h₆ := (wired_setType (by decide)).ok hrun₆
  refine (leaves_applyScenarioUplinkBinding scenario h₆).mono fun _ h₇ hled => ?_
  refine ⟨scenario, hclass, ?_, hled.2.1, fun hno => ?_⟩
  · rw [hled.1, hw₆.1, hbr₅]
    exact hbuilt
  · have hlan := hled.2.2 hno
    rw [hlan, hw₆.2.1 "lan" (by decide), hdev₅, hdev₄, hw₃.2.1 "lan" (by decide)]

/-! ## The phases around it -/

theorem wired_commit : Within Wired commit := by
  intro h
  have htree : (final commit h).tree.mem = h.tree.mem := by
    unfold final commit
    cases h.fate.refuses h.tick with
    | true => simp [Tree.flush]
    | false => simp [Tree.flush]
  have hmem : (final commit h).tree.mem "network" = h.tree.mem "network" := by rw [htree]
  refine ⟨?_, fun n _ => get_congr hmem, fun name => ?_⟩
  · rw [bridges, bridges, hmem]
  · rw [staleSection, staleSection, kind_congr hmem, get_congr hmem]

theorem wired_writeWizardBookkeeping : Within Wired (writeWizardBookkeeping p) := by
  have hflags : Within (Edits ["openmanetd"] ["openmanetd"]) (writeOpenmanetdFlags p) :=
    within_bind (within_ignored (within_addSection (by decide) (by decide))) fun _ =>
      within_setOptions (by decide)
  have hluci : Within (Edits ["luci"] ["luci"]) writeLuciBookkeeping :=
    within_writeLuciBookkeeping (by decide) (by decide)
  refine within_bind (within_ignored wired_addSection) fun _ =>
    within_bind (within_forM_of_mem fun w hw => ?_) fun _ =>
      within_bind (wired_of_edits hflags (by decide)) fun _ => wired_of_edits hluci (by decide)
  have hkey := (List.mem_filter.1 hw).1
  simp only [List.mem_cons, List.not_mem_nil, or_false] at hkey
  have hout : w.1 ∈ ["device_mode_meshpoint", "device_mode_meshgate", "uplink"] := by
    rcases hkey with rfl | rfl | rfl <;> simp
  refine wired_setType ?_
  revert hout
  generalize w.1 = option
  simp only [List.mem_cons, List.not_mem_nil, or_false]
  rintro (rfl | rfl | rfl) <;> decide

/-- The scenarios write to the firewall, to the pools and to their own
sections. -/
theorem wired_scenarioTopology : Within Wired (S.scenarioTopology p) := by
  have hfw : ∀ {m : Prog Unit}, Within (Edits ["firewall"] ["firewall"]) m → Within Wired m :=
    fun hm => wired_of_edits hm (by decide)
  have hfw' : ∀ {m : Prog String}, Within (Edits ["firewall"] ["firewall"]) m → Within Wired m :=
    fun hm => wired_of_edits hm (by decide)
  have hdhcp : ∀ {m : Prog Unit}, Within (Edits ["dhcp"] ["dhcp"]) m → Within Wired m :=
    fun hm => wired_of_edits hm (by decide)
  have hf : "firewall" ∈ ["firewall"] := by decide
  have hd : "dhcp" ∈ ["dhcp"] := by decide
  have hrules : Within Wired (addDefaultWanFirewallRules "ahwlan") :=
    hfw (within_addDefaultWanFirewallRules hf hf)
  have hgate : ∀ zone, Within Wired (S.scenarioMeshGateRouter p zone) := fun zone =>
    within_bind (hfw (within_ensureZone hf hf)) fun _ =>
      within_bind (within_saying (hfw' (within_getOrCreateZone hf hf))) fun _ =>
        within_bind (within_onlyIf (within_saying (hfw (within_appendZoneNetwork hf)))) fun _ =>
          within_bind (within_saying (hfw' (within_getOrCreateForwarding hf hf))) fun _ =>
            within_bind (within_onlyIf (within_saying (hfw (within_setZoneOption hf)))) fun _ =>
              within_bind (within_saying (hfw (within_setZoneOption hf))) fun _ =>
                within_bind hrules fun _ =>
                  within_bind (hdhcp (within_setupAhwlanDhcp hd hd)) fun _ =>
                    wired_writeWizardBookkeeping
  have hscen : Within (Edits [] []) (scenarioOf p) := within_scenarioOf
  refine within_bind (wired_of_edits hscen (by decide)) fun scenario => ?_
  cases scenario with
  | meshGateRouterEth => exact hgate "lan"
  | meshGateRouterFirewallEth => exact hgate "wan"
  | meshGateRouterWifiSta => exact hgate "lan"
  | meshPointExtender =>
      exact within_bind (hfw (within_ensureZone hf hf)) fun _ =>
        within_bind (hfw (within_ensureZone hf hf)) fun _ =>
          within_bind (within_saying (hfw' (within_getOrCreateForwarding hf hf))) fun _ =>
            within_bind hrules fun _ =>
              within_bind (hdhcp (within_setupAhwlanDhcp hd hd)) fun _ =>
                wired_writeWizardBookkeeping
  | meshPointNone =>
      have hpool : Within (Edits ["dhcp"] ["dhcp"]) S.setupLanDhcpNoUplink := by
        grind [Service.setupLanDhcpNoUplink]
      exact within_bind (within_saying (wired_setType (by decide))) fun _ =>
        within_bind (within_saying (wired_del (by decide))) fun _ =>
          within_bind (hfw (within_ensureZone hf hf)) fun _ =>
            within_bind (hfw (within_ensureZone hf hf)) fun _ =>
              within_bind hrules fun _ =>
                within_bind (hdhcp hpool) fun _ => wired_writeWizardBookkeeping

/-- The ports of the new bridge are those it starts with and the mesh
device. -/
def joined (ports : List String) : List String :=
  if "bat0" ∈ ports then ports else ports ++ ["bat0"]

/-- **The mesh device joins the bridge.** -/
theorem leaves_batmanAdv {h : Host} {ports : List String} {old : List Bridge}
    (hbuilt : Built "br-ahwlan" ports old (bridges h.tree)) :
    Leaves (S.batmanAdv p) h fun _ h' =>
      Built "br-ahwlan" (joined ports) old (bridges h'.tree) ∧
        ∀ n ∈ uplinkNames, h'.tree.get "network" n "device" = h.tree.get "network" n "device" := by
  unfold Service.batmanAdv
  rw [leaves_bind]
  intro _ h₁ hrun₁
  have hw₁ : Wired.rel h h₁ := wired_setupBatmanDevice.ok hrun₁
  rw [leaves_bind]
  intro _ h₂ hrun₂
  have hw₂ : Wired.rel h₁ h₂ := wired_setupBatmanInterface.ok hrun₂
  have hw : Wired.rel h h₂ := Wired.trans hw₁ hw₂
  rw [← hw.1] at hbuilt
  intro _ h₃ hrun₃
  have hjoined : Built "br-ahwlan" (joined ports) old (bridges h₃.tree) :=
    leaves_appendBridgePort hbuilt _ _ hrun₃
  refine ⟨hjoined, fun n hn => ?_⟩
  rw [← hw.2.1 n hn]
  have hlook : Within (Looks fun t => t.get "network" n "device") (do
      let found ← saying "locating br-ahwlan" (findBridgeBySectionName "br-ahwlan")
      if found = "" then
        fail "br-ahwlan bridge not found; phase 6 (BASE_NETWORK) must run first"
      else appendBridgePort found batmanDeviceName) := by
    refine within_bind (within_saying ?_) fun found =>
      within_ite within_fail looks_device_appendBridgePort
    exact within_bind (within_saying looks_getSections) fun _ => within_bind within_tree fun _ =>
      within_pure _
  exact hlook.ok hrun₃

/-- The device an interface `lan` keeps: none, when it is an interface. -/
def strayDevice (t : Tree) : List String :=
  if t.kind "network" "lan" = some "interface" then [] else t.get "network" "lan" "device"

/-- **What a run makes** of the bridges and the uplink. -/
theorem ports_of_bodies {h h' : Host} (hrun : bodies (S.mutationPhases p) h = .ok () h') :
    ∃ scenario, classifyScenario p = .ok scenario ∧
      Built "br-ahwlan" (joined (startPorts S p scenario (swept h.tree)))
        (bridges (swept h.tree)) (bridges h'.tree) ∧
      (scenario.wiredUplink = true → ∀ n ∈ uplinkIfaces scenario,
        h'.tree.get "network" n "device" = [S.resolveUplinkPort p]) ∧
      (scenario.wiredUplink = false → Freed "lan" (swept h.tree) h'.tree) := by
  obtain ⟨a₁, a₂, a₃, a₄, a₅, a₆, a₇, a₈, a₉, a₁₀, hreset, hnet, hhost, htz, hbase, hmesh, hradio,
    hscen, hbat, hsd, hcommit⟩ := states_of_bodies hrun
  obtain ⟨_, b₁, hfw, hnet₁⟩ := bind_eq_ok.1 hnet
  obtain ⟨_, b₂, hdh, hifs⟩ := bind_eq_ok.1 hnet₁
  -- the network config is as it was when the reset comes to it
  have hmem : b₂.tree.mem "network" = h.tree.mem "network" :=
    calc b₂.tree.mem "network"
      _ = b₁.tree.mem "network" := mem_of_edits edits_resetDhcp (by decide) hdh
      _ = a₁.tree.mem "network" := mem_of_edits edits_resetFirewall (by decide) hfw
      _ = h.tree.mem "network" := mem_of_edits edits_resetWireless (by decide) hreset
  have hswept : (swept b₂.tree).mem "network" = (swept h.tree).mem "network" := by
    rw [swept_mem, swept_mem, hmem]
  obtain ⟨hbr₂, hstale₂, hfreed₂⟩ := leaves_resetInterfaces b₂ _ _ hifs
  have hold : bridges (swept b₂.tree) = bridges (swept h.tree) := by rw [bridges, bridges, hswept]
  have hw₄ : Wired.rel a₂ a₄ := Wired.trans ((wired_of_edits edits_writeHostname (by decide)).ok hhost)
    ((wired_of_edits edits_setTimezone (by decide)).ok htz)
  have hbr₄ : bridges a₄.tree = bridges (swept h.tree) := hw₄.1.trans (hbr₂.trans hold)
  have hstale₄ : stalePorts "br-ahwlan" a₄.tree = stalePorts "br-ahwlan" (swept h.tree) := by
    rw [stalePorts_congr hw₄.1 (hw₄.2.2 _), hstale₂]
    refine stalePorts_congr hold ?_
    rw [staleSection, staleSection, kind_congr hswept, get_congr hswept]
  obtain ⟨scenario, hclass, hbuilt, hup, hlan⟩ := leaves_baseNetwork
    (by rw [hbr₄]; exact fun x hx => section_of_swept_bridge hx) _ _ hbase
  have hw₈ : Wired.rel a₅ a₈ := Wired.trans
    (Wired.trans ((wired_of_edits edits_wirelessMesh (by decide)).ok hmesh)
      ((wired_of_edits edits_perRadioAPSta (by decide)).ok hradio)) (wired_scenarioTopology.ok hscen)
  rw [← hw₈.1] at hbuilt
  obtain ⟨hjoined, hdev₉⟩ := leaves_batmanAdv hbuilt _ _ hbat
  have hw₁₁ : Wired.rel a₉ h' := Wired.trans ((wired_of_edits edits_mesh11sd (by decide)).ok hsd)
    (wired_commit.ok hcommit)
  have hdev : ∀ n ∈ uplinkNames,
      h'.tree.get "network" n "device" = a₅.tree.get "network" n "device" := fun n hn =>
    (hw₁₁.2.1 n hn).trans ((hdev₉ n hn).trans (hw₈.2.1 n hn))
  refine ⟨scenario, hclass, ?_, fun hyes n hn => ?_, fun hno => ?_⟩
  · have hstart : startPorts S p scenario a₄.tree = startPorts S p scenario (swept h.tree) := by
      rw [startPorts, startPorts, hstale₄]
    rw [hstart, hbr₄] at hjoined
    rw [hw₁₁.1]
    exact hjoined
  · have hin : n ∈ uplinkNames := by
      revert hn
      cases scenario <;> simp [uplinkIfaces, uplinkNames] <;> grind
    rw [hdev n hin]
    exact hup hyes n hn
  · have hlan₂ : h'.tree.get "network" "lan" "device" = a₂.tree.get "network" "lan" "device" := by
      rw [hdev "lan" (by decide), hlan hno, hw₄.2.1 "lan" (by decide)]
    unfold Freed at hfreed₂ ⊢
    rw [hlan₂, ← kind_congr hswept, ← get_congr hswept]
    exact hfreed₂

/-! ## One place for each port -/

/-- The ports of the bridges of a name. -/
def bridgePorts (name : String) (t : Tree) : List String :=
  ((bridges t).filter (Bridge.isCalled name)).flatMap Bridge.ports

/-- The port is bound to the interfaces that lead upstream. -/
def OnUplink (scenario : ScenarioKind) (t : Tree) (q : String) : Prop :=
  ∀ n ∈ uplinkIfaces scenario, (t.get "network" n "device").head? = some q

/-- Two bridges share no port. -/
def BridgesApart (x y : Bridge) : Prop := ∀ q ∈ x.ports, q ∉ y.ports

/-- **Every detected port has one place**, on the mesh bridge or upstream, no
two bridges share a port, and the mesh device is on the mesh bridge once. -/
structure Partitioned (S : Service) (scenario : ScenarioKind) (t : Tree) : Prop where
  placed : ∀ q ∈ S.collectEthernetPorts,
    Xor' (q ∈ bridgePorts "br-ahwlan" t) (OnUplink scenario t q)
  apart : (bridges t).Pairwise BridgesApart
  mesh : (bridgePorts "br-ahwlan" t).count "bat0" = 1

/-- The bridges that the walk over the old ones passes over and that the new
one does not take over. -/
def passedOver (t : Tree) : List Bridge :=
  (bridges (swept t)).eraseP (Bridge.isCalled "br-ahwlan")

/-- The bridge a run makes of the ports it starts with. -/
def meshBridge (ports : List String) : Bridge := ⟨"", ["br-ahwlan"], "bat0" :: ports⟩

/-- What was there leaves room for the new bridge: the bridges passed over
share no port with it or with one another, those of its name do not have the
uplink, the ports it starts with have neither the uplink nor the mesh device
twice, and `lan` has no detected port when nothing unsets it. -/
structure Clear (S : Service) (p : MeshNodeProfile) (scenario : ScenarioKind) (t : Tree) :
    Prop where
  uplink : scenario.wiredUplink = true → S.resolveUplinkPort p ∈ S.collectEthernetPorts →
    S.resolveUplinkPort p ∉ startPorts S p scenario (swept t) ∧
      ∀ x ∈ passedOver t, x.isCalled "br-ahwlan" = true → S.resolveUplinkPort p ∉ x.ports
  stray : scenario.wiredUplink = false → ∀ q ∈ S.collectEthernetPorts,
    (strayDevice (swept t)).head? ≠ some q
  apart : (meshBridge (startPorts S p scenario (swept t)) :: passedOver t).Pairwise BridgesApart
  mesh : (startPorts S p scenario (swept t)).count "bat0" ≤ 1

theorem bridge_apart_symm {x y : Bridge} (h : BridgesApart x y) : BridgesApart y x := fun q hq hx => h q hx hq

/-! ### The ports chosen -/

theorem likely_of_collected {q : String} (hq : q ∈ S.collectEthernetPorts) :
    isLikelyEthernetPort q = true := (List.mem_filter.1 hq).2

theorem ne_of_collected {q : String} (hq : q ∈ S.collectEthernetPorts) : q ≠ "bat0" ∧ q ≠ "lo" := by
  have hlikely := likely_of_collected hq
  constructor
  · rintro rfl
    exact absurd hlikely (by decide)
  · rintro rfl
    exact absurd hlikely (by decide)

theorem mem_ethernetPorts {q : String} (hq : q ∈ S.collectEthernetPorts) : q ∈ S.ethernetPorts := by
  unfold Service.ethernetPorts
  rw [if_neg (List.ne_nil_of_mem hq)]
  exact hq

/-- A detected port that is not the uplink is chosen for the bridge. -/
theorem mem_startPorts {scenario : ScenarioKind} {t : Tree} {q : String}
    (hq : q ∈ S.collectEthernetPorts)
    (hup : scenario.wiredUplink = true → q ≠ S.resolveUplinkPort p) :
    q ∈ startPorts S p scenario t := by
  have hchosen : q ∈ S.ethernetPortsForAhwlan p scenario := by
    have hall := mem_ethernetPorts hq
    cases scenario with
    | meshGateRouterEth => exact List.mem_filter.2 ⟨hall, by simpa using hup rfl⟩
    | meshGateRouterFirewallEth => exact List.mem_filter.2 ⟨hall, by simpa using hup rfl⟩
    | meshGateRouterWifiSta => exact hall
    | meshPointExtender => exact hall
    | meshPointNone => exact hall
  unfold startPorts
  rw [if_neg (List.ne_nil_of_mem hchosen)]
  exact hchosen

/-! ### The bridges a run makes -/

section Built

variable {ports : List String} {old new : List Bridge} {t : Tree}

theorem mem_joined {q : String} : q ∈ joined ports ↔ q = "bat0" ∨ q ∈ ports := by
  unfold joined
  split
  · next hin =>
    constructor
    · exact .inr
    · rintro (rfl | hq)
      · exact hin
      · exact hq
  · rw [List.mem_append, List.mem_singleton, or_comm]

theorem count_joined : (joined ports).count "bat0" = max 1 (ports.count "bat0") := by
  unfold joined
  split
  · next hin =>
    have hpos := List.count_pos_iff.2 hin
    omega
  · next hout =>
    rw [List.count_append, List.count_eq_zero.2 hout]
    rfl

theorem perm_of_built (h : Built "br-ahwlan" (joined ports) old new) :
    ∃ x, x.isCalled "br-ahwlan" = true ∧ x.ports = joined ports ∧
      new.Perm (x :: old.eraseP (Bridge.isCalled "br-ahwlan")) := by
  obtain ⟨pre, x, post, rfl, hrest, -, -, hname, hports⟩ := h
  refine ⟨x, by simp [Bridge.isCalled, hname], hports, ?_⟩
  rw [← hrest]
  exact List.perm_middle

/-- No two bridges share a port when the new one, made of what it starts
with, does so with none of the others. -/
theorem apart_iff_of_built (h : Built "br-ahwlan" (joined ports) old new) :
    new.Pairwise BridgesApart ↔
      (meshBridge ports :: old.eraseP (Bridge.isCalled "br-ahwlan")).Pairwise BridgesApart := by
  obtain ⟨x, -, hports, hperm⟩ := perm_of_built h
  rw [hperm.pairwise_iff fun hxy => bridge_apart_symm hxy, List.pairwise_cons, List.pairwise_cons]
  refine and_congr_left fun _ => forall₂_congr fun y _ => ?_
  unfold BridgesApart
  rw [hports]
  refine forall_congr' fun q => imp_congr_left ?_
  rw [mem_joined]
  simp [meshBridge]

theorem mem_bridgePorts_of_built (h : Built "br-ahwlan" (joined ports) old (bridges t))
    {q : String} : q ∈ bridgePorts "br-ahwlan" t ↔ q = "bat0" ∨ q ∈ ports ∨
      ∃ x ∈ old.eraseP (Bridge.isCalled "br-ahwlan"), x.isCalled "br-ahwlan" = true ∧
        q ∈ x.ports := by
  obtain ⟨x, hcalled, hports, hperm⟩ := perm_of_built h
  have hmem : q ∈ bridgePorts "br-ahwlan" t ↔
      ∃ y ∈ x :: old.eraseP (Bridge.isCalled "br-ahwlan"), y.isCalled "br-ahwlan" = true ∧
        q ∈ y.ports := by
    simp only [bridgePorts, List.mem_flatMap, List.mem_filter, hperm.mem_iff, and_assoc]
  rw [hmem, ← or_assoc, ← mem_joined, ← hports]
  constructor
  · rintro ⟨y, hy, hc, hq⟩
    rcases List.mem_cons.1 hy with rfl | hy
    · exact .inl hq
    · exact .inr ⟨y, hy, hc, hq⟩
  · rintro (hq | ⟨y, hy, hc, hq⟩)
    · exact ⟨x, List.mem_cons_self .., hcalled, hq⟩
    · exact ⟨y, List.mem_cons_of_mem _ hy, hc, hq⟩

theorem count_bridgePorts_of_built (h : Built "br-ahwlan" (joined ports) old (bridges t)) :
    (bridgePorts "br-ahwlan" t).count "bat0" = max 1 (ports.count "bat0") +
      (((old.eraseP (Bridge.isCalled "br-ahwlan")).filter (Bridge.isCalled "br-ahwlan")).flatMap
        Bridge.ports).count "bat0" := by
  obtain ⟨x, hcalled, hports, hperm⟩ := perm_of_built h
  have hall : (bridgePorts "br-ahwlan" t).Perm
      (((x :: old.eraseP (Bridge.isCalled "br-ahwlan")).filter
        (Bridge.isCalled "br-ahwlan")).flatMap Bridge.ports) := (hperm.filter _).flatMap_right _
  rw [hall.count_eq, List.filter_cons_of_pos hcalled, List.flatMap_cons, List.count_append, hports,
    count_joined]

end Built

/-- **Where the ports go.** After a run that ended well every detected port
has one place, exactly when what was there left room for the new bridge. -/
theorem ports_partitioned_iff {d e : Device} (h : S.applySetup W (some p) d = .ok () e) :
    ∃ scenario, classifyScenario p = .ok scenario ∧
      (Partitioned S scenario e.host.tree ↔ Clear S p scenario d.host.tree) := by
  obtain ⟨-, -, g, g', hg, hbodies, hg'⟩ := bodies_of_applySetup h
  obtain ⟨scenario, hclass, hbuilt, hup, hlan⟩ := ports_of_bodies hbodies
  rw [hg, hg'] at hbuilt hlan
  rw [hg'] at hup
  refine ⟨scenario, hclass, ?_⟩
  have hmem := fun q => mem_bridgePorts_of_built (q := q) hbuilt
  have hcount := count_bridgePorts_of_built hbuilt
  -- the uplink port is bound, and no other detected port is
  have hbound : scenario.wiredUplink = true → ∀ q,
      (OnUplink scenario e.host.tree q ↔ q = S.resolveUplinkPort p) := by
    intro hyes q
    have hhead : ∀ n ∈ uplinkIfaces scenario,
        (e.host.tree.get "network" n "device").head? = some (S.resolveUplinkPort p) := by
      intro n hn
      rw [hup hyes n hn]
      rfl
    have hsome : ∃ n, n ∈ uplinkIfaces scenario := by
      cases scenario
      · exact ⟨"lan", by decide⟩
      · exact ⟨"wan", by decide⟩
      · exact ⟨"lan", by decide⟩
      · exact ⟨"lan", by decide⟩
      · exact ⟨"lan", by decide⟩
    constructor
    · intro hon
      obtain ⟨n, hn⟩ := hsome
      exact Option.some.inj ((hon n hn).symm.trans (hhead n hn))
    · rintro rfl
      exact hhead
  have hfree : scenario.wiredUplink = false → ∀ q ∈ S.collectEthernetPorts,
      (OnUplink scenario e.host.tree q ↔
        (strayDevice (swept d.host.tree)).head? = some q) := by
    intro hno q hq
    have hiff : OnUplink scenario e.host.tree q ↔
        (e.host.tree.get "network" "lan" "device").head? = some q := by
      unfold OnUplink
      cases scenario with
      | meshGateRouterEth => cases hno
      | meshGateRouterFirewallEth => cases hno
      | meshGateRouterWifiSta => simp [uplinkIfaces]
      | meshPointExtender => simp [uplinkIfaces]
      | meshPointNone => simp [uplinkIfaces]
    have hfreed := hlan hno
    rw [hiff]
    unfold Freed at hfreed
    unfold strayDevice
    split at hfreed
    · next hiface =>
      rw [if_pos hiface]
      rcases hfreed with hnone | hlo
      · simp [hnone]
      · simp [hlo, (ne_of_collected hq).2.symm]
    · next hother => rw [if_neg hother, hfreed]
  constructor
  · rintro ⟨hplaced, hapart, hmesh⟩
    refine ⟨fun hyes hq => ?_, fun hno q hq hstray => ?_, (apart_iff_of_built hbuilt).1 hapart, ?_⟩
    · have hout : S.resolveUplinkPort p ∉ bridgePorts "br-ahwlan" e.host.tree := by
        intro hin
        rcases hplaced _ hq with ⟨-, hoff⟩ | ⟨-, hoff⟩
        · exact hoff ((hbound hyes _).2 rfl)
        · exact hoff hin
      rw [hmem, not_or, not_or] at hout
      exact ⟨hout.2.1, fun x hx hc hin => hout.2.2 ⟨x, hx, hc, hin⟩⟩
    · have hin : q ∈ bridgePorts "br-ahwlan" e.host.tree := by
        rw [hmem]
        exact .inr (.inl (mem_startPorts hq fun hyes => absurd (hno.symm.trans hyes) (by decide)))
      rcases hplaced q hq with ⟨-, hoff⟩ | ⟨-, hoff⟩
      · exact hoff ((hfree hno q hq).2 hstray)
      · exact hoff hin
    · omega
  · rintro ⟨huplink, hstray, hapart, hmesh⟩
    refine ⟨fun q hq => ?_, (apart_iff_of_built hbuilt).2 hapart, ?_⟩
    · cases hw : scenario.wiredUplink with
      | true =>
          rw [hbound hw]
          by_cases heq : q = S.resolveUplinkPort p
          · refine .inr ⟨heq, ?_⟩
            obtain ⟨hout, hothers⟩ := huplink hw (heq ▸ hq)
            rw [hmem, heq]
            rintro (hbat | hin | ⟨x, hx, hc, hin⟩)
            · exact (ne_of_collected hq).1 (heq.trans hbat)
            · exact hout hin
            · exact hothers x hx hc hin
          · refine .inl ⟨?_, heq⟩
            rw [hmem]
            exact .inr (.inl (mem_startPorts hq fun _ => heq))
      | false =>
          refine .inl ⟨?_, fun hon => hstray hw q hq ((hfree hw q hq).1 hon)⟩
          rw [hmem]
          exact .inr (.inl (mem_startPorts hq fun hyes => absurd (hw.symm.trans hyes) (by decide)))
    · have hnone : ((((bridges (swept d.host.tree)).eraseP (Bridge.isCalled "br-ahwlan")).filter
          (Bridge.isCalled "br-ahwlan")).flatMap Bridge.ports).count "bat0" = 0 := by
        rw [List.count_eq_zero]
        intro hin
        obtain ⟨x, hx, hin⟩ := List.mem_flatMap.1 hin
        exact (List.pairwise_cons.1 hapart).1 x (List.mem_filter.1 hx).1 "bat0"
          (List.mem_cons_self ..) hin
      omega

/-- The bench, with one bridge from an earlier run. -/
def Bench.bridged : Device :=
  Bench.device (Bench.files Bench.wireless (Bench.config
    [Bench.sec "interface" "lan" [("proto", "static"), ("device", "br-lan")],
      Bench.sec "device" "" [("type", "bridge"), ("name", "br-lan"), ("ports", "eth0")]]
    (by decide +kernel)) (some Config.empty))

theorem ports_partitioned_bridged :
    ∃ scenario, classifyScenario Bench.profile = .ok scenario ∧
      (Partitioned Bench.service scenario
          (final (Bench.service.applySetup Bench.calm (some Bench.profile)) Bench.bridged).host.tree ↔
        Clear Bench.service Bench.profile scenario Bench.bridged.host.tree) :=
  ports_partitioned_iff (ok_of_succeeds (by decide +kernel))

/-- Two anonymous bridges, one behind the other. -/
def Bench.twoBridges : Device :=
  Bench.device (Bench.files Bench.wireless (Bench.config
    [Bench.sec "interface" "lan" [("proto", "static"), ("device", "br-lan")],
      Bench.sec "device" "" [("type", "bridge"), ("name", "br-lan"), ("ports", "eth0")],
      Bench.sec "device" "" [("type", "bridge"), ("name", "br-guest"), ("ports", "eth1")]]
    (by decide +kernel)) (some Config.empty))

/-- The second is passed over, and its port is on two bridges. -/
theorem second_bridge_keeps_port :
    let run := Bench.service.applySetup Bench.calm (some Bench.profile)
    succeeds run Bench.twoBridges = true ∧
      bridges (final run Bench.twoBridges).host.tree =
        [⟨"", ["br-guest"], ["eth1"]⟩,
          ⟨"wizard_bridge_br_ahwlan", ["br-ahwlan"], ["eth0", "eth1", "bat0"]⟩] ∧
      ¬ Partitioned Bench.service .meshPointExtender (final run Bench.twoBridges).host.tree := by
  intro run
  have hrun : succeeds run Bench.twoBridges = true ∧
      bridges (final run Bench.twoBridges).host.tree =
        [⟨"", ["br-guest"], ["eth1"]⟩,
          ⟨"wizard_bridge_br_ahwlan", ["br-ahwlan"], ["eth0", "eth1", "bat0"]⟩] := by
    decide +kernel
  refine ⟨hrun.1, hrun.2, fun hpart => ?_⟩
  have hapart := hpart.apart
  rw [hrun.2, List.pairwise_cons] at hapart
  exact hapart.1 _ (List.mem_singleton_self _) "eth1" (by decide) (by decide)

end Setup

end OpenManet
