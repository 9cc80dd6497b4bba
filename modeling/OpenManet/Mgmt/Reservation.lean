import OpenManet.Address.Search
import OpenManet.Mgmt.BatMesh1
/-!
# A reservation that fails, and the tick after it

One tick of the address reservation with its writes: `runReservationTicks`,
`reserveOnceWithDeps`, `applyReservationWithDeps` and `cleanUpInterfacesWithDeps`
of `internal/mgmt/address_reservation.go`, and the writers they call. A tick reads
the three configs again, decides, writes the network and the dhcp section, marks
DHCP as configured, removes the bootstrap sections and asks for a reboot.

The mark is what the next tick decides by, and it is written before the clean-up
and the reboot. So what failed before it is done again, and what failed after it is
not, unless a conflict makes the node move (`reservation_completed_iff`).

The three readers have a tree each; a tick reads all of them again before it edits
one, and commits one before it edits the next, and one tree holds the three. The
refresh of the gossip is not here: a tick goes on without it, and the peers are
those that the database lists.
-/

namespace OpenManet

namespace Mgmt

open Uci Fallible Address Network

/-! ## The writers -/

/-- A call outside the configs. -/
def given {α : Type} (what : String) : Except String α → Prog α
  | .ok a => pure a
  | .error e => fail (what ++ ": " ++ e)

/-- The error of a search. -/
def failureText : Failure → String
  | .desiredLimit => "desiredLimit must be greater than 0"
  | .networkSize => "network size too small"
  | .noRange desiredLimit networkSize =>
      "no available DHCP range found for limit " ++ toString desiredLimit.toInt ++
        " within network size " ++ toString networkSize.toInt
  | .noGatewayAddress => "no available IP addresses in 10.41.0.0/24 range"
  | .noAddress => "no available IP addresses in 10.41.0.0/16 range"

/-- `GetOpenMANETConfigWithReader` and `IsDHCPConfiguredWithReader`, of the config
`openmanetd`. -/
def dhcpConfigured (c : Option Uci.Config) : Except String Bool :=
  let value := ((c.map fun c => c.get "config" "dhcpconfigured").getD []).head?.getD ""
  if value = "0" ∨ value = "" then .ok false
  else
    match atoi value with
    | .error e => .error ("invalid dhcpconfigured value: " ++ e)
    | .ok configured => .ok (configured = 1)

/-- The options that are not blank are written to a section, which is added if it is
not there, and committed. -/
def setSection (config what type section' : String) (options : List (String × String)) :
    Prog Unit := do
  ignored (addSection config section' type)
  setOptions config section' failedToSet (written options)
  saying ("failed to commit " ++ what ++ " config") commit

/-- `SetDHCPConfiguredWithReader`. -/
def setDHCPConfigured : Prog Unit :=
  setSection "openmanetd" "OpenMANET" "openmanet" "config" [("dhcpconfigured", "1")]

/-- `UCINetwork`. -/
structure UCINetwork where
  proto : String := ""
  netMask : String := ""
  ipAddr : String := ""
  gateway : String := ""
  dns : String := ""
  device : String := ""
  master : String := ""
  ipv6Assignment : String := ""
  ipv6IfaceID : String := ""
  ipv6Class : String := ""
  multicastMode : String := ""

/-- The options with their values, in write order. -/
def UCINetwork.options (config : UCINetwork) : List (String × String) :=
  [("proto", config.proto), ("netmask", config.netMask), ("ipaddr", config.ipAddr),
    ("gateway", config.gateway), ("dns", config.dns), ("device", config.device),
    ("master", config.master), ("ip6assign", config.ipv6Assignment),
    ("ip6ifaceid", config.ipv6IfaceID), ("ip6class", config.ipv6Class),
    ("multicast_mode", config.multicastMode)]

/-- `SetNetworkConfigWithReader`. -/
def setNetworkConfig (section' : String) (config : UCINetwork) : Prog Unit :=
  setSection "network" "network" "interface" section' config.options

/-- `UCIDHCP`. -/
structure UCIDHCP where
  interface : String := ""
  start : String := ""
  limit : String := ""
  leaseTime : String := ""
  ignore : String := ""
  dhcpOption : String := ""
  ra : String := ""
  raDefault : String := ""
  force : String := ""

/-- The options with their values, in write order. -/
def UCIDHCP.options (config : UCIDHCP) : List (String × String) :=
  [("interface", config.interface), ("start", config.start), ("limit", config.limit),
    ("leasetime", config.leaseTime), ("ignore", config.ignore),
    ("dhcp_option", config.dhcpOption), ("ra", config.ra), ("ra_default", config.raDefault),
    ("force", config.force)]

/-- `SetDHCPConfigWithReader`. -/
def setDHCPConfig (section' : String) (config : UCIDHCP) : Prog Unit :=
  setSection "dhcp" "DHCP" "dhcp" section' config.options

/-- `DeleteNetworkConfigWithReader` and `DeleteDHCPConfigWithReader`. -/
def deleteSection (config what commits section' : String) : Prog Unit := do
  saying ("failed to delete " ++ what ++ " section") (delSection config section')
  saying ("failed to commit " ++ commits ++ " config") commit

/-- A section is removed where it is there, and the config committed. -/
def removeSection (config what commits section' : String) : Prog Unit := do
  let t ← tree
  onlyIf (t.found config section' = true)
    (saying ("error deleting '" ++ section' ++ "' " ++ what ++ " section")
      (deleteSection config what commits section'))
  saying ("error committing " ++ commits ++ " config") commit

/-- `cleanUpInterfacesWithDeps`. -/
def cleanUpInterfaces (isGateway : Bool) (reloadFn : Except String Unit) : Prog Unit := do
  if isGateway then pure ()
  else do
    removeSection "network" "network" "network" "lan"
    removeSection "dhcp" "DHCP" "DHCP" "lan"
    given "error reloading network configuration" reloadFn

/-! ## One tick -/

/-- The peer rows, and what the searches make of them. -/
structure Peers where
  nodes : List MeshNode
  sorted : SortedRanges nodes
  draws : ℕ → Fin 252 × Fin 254
  /-- `CalculateAvailableDHCPStart`. -/
  window : Except Failure Int64
  found : ∃ fuel, calculateAvailableDHCPStart sorted.ranges defaultDHCPAddressLimit
    defaultNetworkMask fuel = some window

/-- `SelectAvailableStaticIPFromNodeData`. -/
def Peers.staticIP (p : Peers) (gatewayMode : Bool) : Except Failure String :=
  selectAvailableStaticIPFromNodeData p.draws p.nodes gatewayMode

/-- What a tick gets from outside. -/
structure Surroundings where
  /-- `ListMeshNodes`. -/
  peers : Except String Peers
  /-- The MAC of the interface, and its addresses. -/
  mac : String
  ips : List String
  /-- `GetMeshConfig`, of which `IsGatewayMode` is read. -/
  meshConfig : Except String Bool
  reloadNetwork : Except String Unit
  reboot : Except String Unit

/-- The interface of the configuration: a bridge, named after the section. -/
structure Bridge where
  base : String
  plain : Plain base
  named : base ≠ ""

/-- `IFace`. -/
def Bridge.iface (b : Bridge) : String := "br-" ++ b.base

/-- `InterfaceWithoutBridge`. -/
def interfaceWithoutBridge (iface : String) : Except String String :=
  if "br-".toList.isPrefixOf iface.toList then .ok (String.ofList (iface.toList.drop 3))
  else .error ("interface " ++ iface ++ " is not a bridge interface")

/-- The network section of a reservation. -/
def networkOf (iface staticIP : String) : UCINetwork where
  proto := "static"
  ipAddr := staticIP
  netMask := "255.255.0.0"
  ipv6Class := "local"
  ipv6IfaceID := "eui64"
  ipv6Assignment := "64"
  device := iface

/-- The dhcp section of a reservation. -/
def dhcpOf (section' : String) (start : Int64) : UCIDHCP where
  interface := section'
  start := toString start.toInt
  limit := "16"
  leaseTime := "12h"
  force := "1"

/-- `applyReservationWithDeps`, up to the mark: the choices and their writes. -/
def writeReservation (iface : String) (w : Surroundings) (p : Peers) : Prog Bool := do
  let isGateway ← given "get mesh config" w.meshConfig
  let staticIP ← given "select available static IP"
    ((p.staticIP isGateway).mapError failureText)
  let normalizedIface ← given "normalize interface name" (interfaceWithoutBridge iface)
  saying "set network config" (setNetworkConfig normalizedIface (networkOf iface staticIP))
  let dhcpStart ← given "calculate DHCP start" (p.window.mapError failureText)
  saying "set DHCP config" (setDHCPConfig normalizedIface (dhcpOf normalizedIface dhcpStart))
  pure isGateway

/-- And after it: the clean-up and the reboot. -/
def finishReservation (w : Surroundings) (isGateway : Bool) : Prog Unit := do
  saying "clean up interfaces" (cleanUpInterfaces isGateway w.reloadNetwork)
  given "reboot" w.reboot

/-- `applyReservationWithDeps`. -/
def applyReservationWithDeps (iface : String) (w : Surroundings) (p : Peers) : Prog Unit := do
  let isGateway ← writeReservation iface w p
  saying "mark DHCP configured" setDHCPConfigured
  finishReservation w isGateway

variable (toLower : String → String) (b : Bridge)

/-- `reserveOnceWithDeps`, and whether it has asked for a reboot. -/
def reserveOnceWithDeps (w : Surroundings) : Prog Bool := do
  let t ← tree
  let configured ← given "check DHCP configuration" (dhcpConfigured (t.mem "openmanetd"))
  let p ← given "list mesh nodes" w.peers
  if reserves toLower configured w.mac w.ips p.nodes then do
    applyReservationWithDeps b.iface w p
    pure true
  else pure false

/-- `reloadUCIConfigs`. -/
def reloadUCIConfigs : Prog Unit := do
  saying "reload openmanetd" (loadConfig "openmanetd")
  saying "reload network" (loadConfig "network")
  saying "reload dhcp" (loadConfig "dhcp")

/-- A round of `runReservationTicks`. -/
def reservationTick (w : Surroundings) : Prog Bool := do
  reloadUCIConfigs
  reserveOnceWithDeps toLower b w

/-! ## What a reservation is -/

/-- The values of an option in the files. -/
def filed (h : Host) (config ref option : String) : List String :=
  ((h.tree.disk config).map fun c => c.get ref option).getD []

/-- The files hold a section. -/
def holds (h : Host) (config ref : String) : Bool :=
  (h.tree.disk config).any fun c => (c.find ref).isSome

/-- **The sections hold a reservation**: an address that the node may have and no
peer holds, and the start of a window. -/
structure Reserved (p : Peers) (isGateway : Bool) (h : Host) : Prop where
  address : ∃ staticIP, p.staticIP isGateway = .ok staticIP ∧
    Eligible isGateway staticIP ∧ ¬ Held p.nodes staticIP ∧
    filed h "network" b.base "ipaddr" = [staticIP] ∧
    filed h "network" b.base "proto" = ["static"] ∧
    filed h "network" b.base "netmask" = ["255.255.0.0"] ∧
    filed h "network" b.base "device" = [b.iface]
  window : ∃ start, p.window = .ok start ∧
    filed h "dhcp" b.base "interface" = [b.base] ∧
    filed h "dhcp" b.base "start" = [toString start.toInt] ∧
    filed h "dhcp" b.base "limit" = ["16"] ∧
    filed h "dhcp" b.base "leasetime" = ["12h"] ∧
    filed h "dhcp" b.base "force" = ["1"]

/-- **A reservation is completed**: the sections hold it, on a node that is no
gateway the bootstrap sections are gone, and the reboot has been asked for. -/
structure Completed (p : Peers) (isGateway requested : Bool) (h : Host) : Prop where
  reserved : Reserved b p isGateway h
  cleaned : isGateway = false → holds h "network" "lan" = false ∧ holds h "dhcp" "lan" = false
  rebooted : requested = true

/-- The mark is not in the file. -/
def Unmarked (h : Host) : Prop := dhcpConfigured (h.tree.disk "openmanetd") = .ok false

/-- The node moves out of a conflict. -/
def Moves (w : Surroundings) (p : Peers) : Prop :=
  yieldsAddress toLower w.mac (findIPConflicts w.ips p.nodes) = true

/-- Where a reservation fails: at a choice or its writes, at the mark, or after it. -/
inductive Stage
  | writes
  | mark
  | finish

/-- `applyReservationWithDeps` fails there. -/
def FailsAt (iface : String) (w : Surroundings) (p : Peers) (h h' : Host) : Stage → Prop
  | .writes => ∃ e, writeReservation iface w p h = .error e h'
  | .mark => ∃ isGateway h₁ e,
      writeReservation iface w p h = .ok isGateway h₁ ∧ setDHCPConfigured h₁ = .error e h'
  | .finish => ∃ isGateway h₁ h₂ e,
      writeReservation iface w p h = .ok isGateway h₁ ∧ setDHCPConfigured h₁ = .ok () h₂ ∧
        finishReservation w isGateway h₂ = .error e h'

/-- **A tick whose reservation fails.** -/
structure FailedTick (w : Surroundings) (p : Peers) (stage : Stage) (h h' : Host) : Prop where
  peers : w.peers = .ok p
  decides : ∃ configured, dhcpConfigured (h.tree.disk "openmanetd") = .ok configured ∧
    reserves toLower configured w.mac w.ips p.nodes = true
  fails : ∃ h₁, reloadUCIConfigs h = .ok () h₁ ∧ FailsAt b.iface w p h₁ h' stage

/-- **The next tick finds no mark**: there was none when the writes failed, or the
mark that failed is not in the file. -/
def Stage.Retried (h h' : Host) : Stage → Prop
  | .writes => Unmarked h
  | .mark => Unmarked h'
  | .finish => False

/-! ## What a writer leaves -/

section Sections

variable {config config' what type section' o v : String} {c : Uci.Config} {h : Host} {α : Type}
  {options : List (String × String)} {r : Except String α}

theorem saying_eq_ok {m : Prog α} {a : α} {h' : Host} :
    saying what m h = .ok a h' ↔ m h = .ok a h' := by
  unfold saying wrapped
  cases m h <;> simp

theorem saying_eq_error {m : Prog α} {h' : Host} :
    (∃ e, saying what m h = .error e h') ↔ ∃ e, m h = .error e h' := by
  unfold saying wrapped
  cases m h <;> simp

@[simp] theorem leaves_given {Q : α → Host → Prop} :
    Leaves (given what r) h Q ↔ ∀ a, r = .ok a → Q a h := by
  cases r with
  | ok a => simp [given]
  | error e => simp [given]

@[simp] theorem within_given {B : Bound Host} : Within B (given what r) := by
  cases r with
  | ok a => exact within_pure a
  | error e => exact within_fail

/-- The config with options of one section. -/
def withSection (c : Uci.Config) (type section' : String) (options : List (String × String)) :
    Uci.Config :=
  (c.ensure section' type).writes section' (written options)

theorem get_withSection (hn : Plain section') (htype : '[' ∉ type.toList)
    (hlast : lastWrite (written options) o = some v) :
    (withSection c type section' options).get section' o = [v] := by
  rw [withSection, Config.get_writes_self (Config.find_ensure_isSome hn htype), hlast]
  rfl

/-- Ensure, write and commit: the file holds what it held, or what is meant. -/
theorem ends_setSection (hn : Plain section') (htype : '[' ∉ type.toList)
    (hsome : written options ≠ []) (hs : Held config c h) :
    Ends config (setSection config what type section' options) h
      (fun _ h' => Held config (withSection c type section' options) h')
      fun d => d = c ∨ d = withSection c type section' options := by
  obtain ⟨w, ws, hwritten⟩ := List.exists_cons_of_ne_nil hsome
  have hthere : ((c.ensure section' type).find section').isSome = true :=
    Config.find_ensure_isSome hn htype
  unfold setSection withSection
  rw [hwritten, ← bind_assoc]
  refine ((hs.ends_put hthere ws).mono (fun _ _ hs' => hs') fun d hd => .inl hd).bind
    fun _ h' hs' => hs'.ends_commit.saying

/-- The other configs stay. -/
theorem guards_setSection (hne : config ≠ config') :
    Within (Guards config c) (setSection config' what type section' options) := by
  have hother : config ∉ [config'] := by simpa using hne
  have hadd : Within (Edits [config'] [config']) (addSection config' section' type) :=
    within_addSection (List.mem_singleton_self _) (List.mem_singleton_self _)
  have hset : Within (Edits [config'] [config'])
      (setOptions config' section' failedToSet (written options)) :=
    within_setOptions (List.mem_singleton_self _)
  exact within_bind (within_ignored (guards_of_edits hadd hother)) fun _ =>
    within_bind (guards_of_edits hset hother) fun _ => within_saying guards_commit

/-- The config without a section. -/
def withoutSection (c : Uci.Config) (section' : String) : Uci.Config :=
  if (c.find section').isSome then c.erase section' else c

theorem find_withoutSection (hn : Plain section') (hne : section' ≠ "") :
    (withoutSection c section').find section' = none := by
  unfold withoutSection
  split
  · rw [Config.find_erase hn hne, if_pos rfl]
  · next hnone => exact Option.not_isSome_iff_eq_none.1 hnone

theorem get_withoutSection {other : String} (hn : Plain other) (hne : other ≠ "")
    (hother : other ≠ section') : (withoutSection c section').get other o = c.get other o := by
  unfold withoutSection
  split
  · rw [Config.get_erase hn hne, if_neg hother]
  · rfl

theorem leaves_removeSection {commits : String} (hs : Held config c h) :
    Leaves (removeSection config what commits section') h
      fun _ h' => Held config (withoutSection c section') h' := by
  have hcommit : ∀ {h' : Host} {c' : Uci.Config}, Staged config c c' h' →
      Leaves commit h' fun _ h'' => Held config c' h'' := fun hs' => hs'.ends_commit.leaves
  have hfound : h.tree.found config section' = (c.find section').isSome := by
    rw [Tree.found, hs.mem]
  unfold removeSection deleteSection withoutSection
  rw [leaves_bind, leaves_tree, leaves_bind, leaves_onlyIf, hfound]
  constructor
  · intro hsome
    rw [leaves_saying, leaves_bind, leaves_saying, if_pos hsome]
    refine leaves_delSection fun c' tick hmem => ?_
    obtain rfl : c' = c := Option.some.inj (hmem.symm.trans hs.mem)
    rw [leaves_saying]
    refine (hcommit (hs.stage tick (c'.erase section'))).mono fun _ h' hs' => ?_
    rw [leaves_saying]
    exact hs'.ends_commit.leaves
  · intro hnone
    rw [if_neg hnone, leaves_saying]
    exact hcommit hs

theorem guards_removeSection {commits : String} (hne : config ≠ config') :
    Within (Guards config c) (removeSection config' what commits section') := by
  have hother : config ∉ [config'] := by simpa using hne
  have hdel : Within (Edits [config'] []) (delSection config' section') :=
    within_delSection (List.mem_singleton_self _)
  refine within_bind within_tree fun t => within_bind (within_onlyIf (within_saying ?_)) fun _ =>
    within_saying guards_commit
  exact within_bind (within_saying (guards_of_edits hdel hother)) fun _ =>
    within_saying guards_commit

/-- A config that is read again is what its file holds. -/
theorem leaves_loadConfig : Leaves (loadConfig config) h fun _ h' =>
    h'.tree.disk = h.tree.disk ∧ ∃ c, h.tree.disk config = some c ∧ Held config c h' := by
  refine leaves_call fun a t tick hok => ?_
  cases hdisk : h.tree.disk config with
  | none => simp [hdisk] at hok
  | some c =>
    obtain rfl : h.tree.load config c = t := by simpa [hdisk] using hok
    exact ⟨rfl, c, rfl, ⟨by simp [Tree.load], hdisk, .inl rfl⟩⟩

theorem guards_loadConfig : Within (Guards config c) (loadConfig config') := by
  refine within_call (fun _ _ hs => hs.tick _) fun h tick a t hok hs => ?_
  cases hdisk : h.tree.disk config' with
  | none => simp [hdisk] at hok
  | some c' =>
    obtain rfl : h.tree.load config' c' = t := by simpa [hdisk] using hok
    refine ⟨?_, hs.disk, .inl rfl⟩
    by_cases hsame : config = config'
    · subst hsame
      obtain rfl : c' = c := Option.some.inj (hdisk.symm.trans hs.disk)
      simp [Tree.load]
    · simpa [Tree.load, Function.update_of_ne hsame] using hs.mem

end Sections

/-! ## What a reservation leaves -/

/-- What the three configs hold, in memory and in their files. -/
structure Holding (openmanetd network dhcp : Uci.Config) (h : Host) : Prop where
  openmanetd : Held "openmanetd" openmanetd h
  network : Held "network" network h
  dhcp : Held "dhcp" dhcp h

section Steps

variable {toLower} {b : Bridge} {w : Surroundings} {p : Peers} {h : Host} {isGateway : Bool}
  {mark network dhcp c : Uci.Config} {staticIP : String}

theorem leaves_reloadUCIConfigs : Leaves reloadUCIConfigs h fun _ h' => ∃ mark network dhcp,
    h.tree.disk "openmanetd" = some mark ∧ Holding mark network dhcp h' := by
  unfold reloadUCIConfigs
  rw [leaves_bind, leaves_saying]
  intro _ h₁ hrun₁
  obtain ⟨-, mark, hdisk, hmark⟩ := leaves_loadConfig _ _ hrun₁
  rw [leaves_bind, leaves_saying]
  intro _ h₂ hrun
  obtain ⟨-, network, -, hnetwork⟩ := leaves_loadConfig _ _ hrun
  have hmark₂ := guards_loadConfig.ok hrun hmark
  rw [leaves_saying]
  intro _ h₃ hrun'
  obtain ⟨-, dhcp, -, hdhcp⟩ := leaves_loadConfig _ _ hrun'
  exact ⟨mark, network, dhcp, hdisk, guards_loadConfig.ok hrun' hmark₂,
    guards_loadConfig.ok hrun' hnetwork, hdhcp⟩

theorem interfaceWithoutBridge_iface (b : Bridge) :
    interfaceWithoutBridge b.iface = .ok b.base := by
  unfold interfaceWithoutBridge Bridge.iface
  simp

/-- The network config with the section of a reservation. -/
def reservedNetwork (b : Bridge) (network : Uci.Config) (staticIP : String) : Uci.Config :=
  withSection network "interface" b.base (networkOf b.iface staticIP).options

/-- The dhcp config with the section of a reservation. -/
def reservedDHCP (b : Bridge) (dhcp : Uci.Config) (start : Int64) : Uci.Config :=
  withSection dhcp "dhcp" b.base (dhcpOf b.base start).options

theorem options_network (h : staticIP ≠ "") :
    written (networkOf b.iface staticIP).options =
      [("proto", "static"), ("netmask", "255.255.0.0"), ("ipaddr", staticIP),
        ("device", b.iface), ("ip6assign", "64"), ("ip6ifaceid", "eui64"),
        ("ip6class", "local")] := by
  have hiface : b.iface ≠ "" := by simp [Bridge.iface, String.append_eq_empty_iff]
  simp [written, UCINetwork.options, networkOf, h, hiface]

theorem options_dhcp (start : Int64) :
    written (dhcpOf b.base start).options =
      [("interface", b.base), ("start", toString start.toInt), ("limit", "16"),
        ("leasetime", "12h"), ("force", "1")] := by
  have hstart : start.toInt.repr ≠ "" := by
    cases start.toInt with
    | ofNat n => exact Nat.repr_ne_empty
    | negSucc n => simp [Int.repr, String.append_eq_empty_iff]
  simp [written, UCIDHCP.options, dhcpOf, b.named, hstart]

theorem ne_empty_of_staticIP {gatewayMode : Bool} (h : p.staticIP gatewayMode = .ok staticIP) :
    staticIP ≠ "" :=
  @ne_empty_of_mem_offered p.draws p.nodes gatewayMode staticIP (mem_offered.2 (select_mem h).1)

theorem eq_ok_of_mapError {ε ε' α : Type} {f : ε → ε'} {r : Except ε α} {a : α}
    (h : r.mapError f = .ok a) : r = .ok a := by
  cases r with
  | ok x => simpa [Except.mapError] using h
  | error e => cases h

theorem leaves_writeReservation (hs : Holding mark network dhcp h) :
    Leaves (writeReservation b.iface w p) h fun isGateway h' => w.meshConfig = .ok isGateway ∧
      ∃ staticIP start, p.staticIP isGateway = .ok staticIP ∧ p.window = .ok start ∧
        Holding mark (reservedNetwork b network staticIP) (reservedDHCP b dhcp start) h' := by
  unfold writeReservation
  simp only [leaves_bind, leaves_given, leaves_saying, leaves_pure]
  intro isGateway hmesh staticIP hip base hbase _ h₁ hnet start hstart _ h₂ hdhcp
  obtain rfl : b.base = base := Except.ok.inj ((interfaceWithoutBridge_iface b).symm.trans hbase)
  have hip := eq_ok_of_mapError hip
  have hwindow := eq_ok_of_mapError hstart
  have hnetwork : Held "network" (reservedNetwork b network staticIP) h₁ := by
    refine (ends_setSection b.plain (by decide) ?_ hs.network).leaves _ _ hnet
    rw [options_network (ne_empty_of_staticIP hip)]
    exact List.cons_ne_nil _ _
  have hpool : Held "dhcp" (reservedDHCP b dhcp start) h₂ := by
    have hdhcp₁ : Held "dhcp" dhcp h₁ := (guards_setSection (by decide)).ok hnet hs.dhcp
    refine (ends_setSection b.plain (by decide) ?_ hdhcp₁).leaves _ _ hdhcp
    rw [options_dhcp]
    exact List.cons_ne_nil _ _
  have hmark₁ : Held "openmanetd" mark h₁ := (guards_setSection (by decide)).ok hnet hs.openmanetd
  exact ⟨hmesh, staticIP, start, hip, hwindow, (guards_setSection (by decide)).ok hdhcp hmark₁,
    (guards_setSection (by decide)).ok hdhcp hnetwork, hpool⟩

theorem guards_writeReservation {iface : String} :
    Within (Guards "openmanetd" c) (writeReservation iface w p) := by
  refine within_bind within_given fun isGateway => within_bind within_given fun staticIP =>
    within_bind within_given fun base => within_bind (within_saying ?_) fun _ =>
      within_bind within_given fun start => within_bind (within_saying ?_) fun _ => within_pure _
  · exact guards_setSection (by decide)
  · exact guards_setSection (by decide)

/-- The config of the daemon with the mark. -/
def marked (c : Uci.Config) : Uci.Config :=
  withSection c "openmanet" "config" [("dhcpconfigured", "1")]

theorem dhcpConfigured_marked (c : Uci.Config) : dhcpConfigured (some (marked c)) = .ok true := by
  have hget : (marked c).get "config" "dhcpconfigured" = ["1"] :=
    get_withSection (by decide) (by decide) rfl
  unfold dhcpConfigured
  simp only [Option.map_some, Option.getD_some, hget]
  rfl

theorem ends_setDHCPConfigured (hs : Held "openmanetd" c h) :
    Ends "openmanetd" setDHCPConfigured h (fun _ h' => Held "openmanetd" (marked c) h')
      fun d => d = c ∨ d = marked c :=
  ends_setSection (by decide) (by decide) (by decide) hs

theorem leaves_setDHCPConfigured (hs : Holding mark network dhcp h) :
    Leaves setDHCPConfigured h fun _ h' => Holding (marked mark) network dhcp h' :=
  fun _ _ hrun => ⟨(ends_setDHCPConfigured hs.openmanetd).leaves _ _ hrun,
    (guards_setSection (by decide)).ok hrun hs.network,
    (guards_setSection (by decide)).ok hrun hs.dhcp⟩

/-- A config after the clean-up. -/
def cleaned (isGateway : Bool) (c : Uci.Config) : Uci.Config :=
  if isGateway then c else withoutSection c "lan"

theorem leaves_finishReservation (hs : Holding mark network dhcp h) :
    Leaves (finishReservation w isGateway) h fun _ h' =>
      Holding mark (cleaned isGateway network) (cleaned isGateway dhcp) h' := by
  unfold finishReservation cleanUpInterfaces cleaned
  cases isGateway with
  | true =>
    simp only [if_true, leaves_bind, leaves_saying, leaves_pure, leaves_given]
    exact fun _ _ => hs
  | false =>
    simp only [Bool.false_eq_true, if_false, leaves_bind, leaves_saying, leaves_given]
    intro _ h₁ hnet _ h₂ hdhcp _ _ _ _
    have hmark₁ : Held "openmanetd" mark h₁ :=
      (guards_removeSection (by decide)).ok hnet hs.openmanetd
    have hdhcp₁ : Held "dhcp" dhcp h₁ := (guards_removeSection (by decide)).ok hnet hs.dhcp
    have hnetwork₁ := leaves_removeSection hs.network _ _ hnet
    exact ⟨(guards_removeSection (by decide)).ok hdhcp hmark₁,
      (guards_removeSection (by decide)).ok hdhcp hnetwork₁,
      leaves_removeSection hdhcp₁ _ _ hdhcp⟩

theorem guards_finishReservation :
    Within (Guards "openmanetd" c) (finishReservation w isGateway) := by
  refine within_bind (within_saying (within_ite (within_pure _) ?_)) fun _ => within_given
  exact within_bind (guards_removeSection (by decide)) fun _ =>
    within_bind (guards_removeSection (by decide)) fun _ => within_given

/-- **A reservation that succeeds** leaves the sections it has chosen, marked and cleaned up. -/
theorem leaves_applyReservation (hs : Holding mark network dhcp h) :
    Leaves (applyReservationWithDeps b.iface w p) h fun _ h' => ∃ isGateway staticIP start,
      w.meshConfig = .ok isGateway ∧ p.staticIP isGateway = .ok staticIP ∧
        p.window = .ok start ∧
        Holding (marked mark) (cleaned isGateway (reservedNetwork b network staticIP))
          (cleaned isGateway (reservedDHCP b dhcp start)) h' := by
  unfold applyReservationWithDeps
  rw [leaves_bind]
  intro isGateway h₁ hwrite
  obtain ⟨hmesh, staticIP, start, hip, hwindow, hs₁⟩ := leaves_writeReservation hs _ _ hwrite
  rw [leaves_bind, leaves_saying]
  refine (leaves_setDHCPConfigured hs₁).mono fun _ h₂ hs₂ => ?_
  exact (leaves_finishReservation hs₂).mono fun _ h₃ hs₃ =>
    ⟨isGateway, staticIP, start, hmesh, hip, hwindow, hs₃⟩

/-! ## What is to be read afterwards -/

theorem filed_of_held {config ref option : String} (hs : Held config c h) :
    filed h config ref option = c.get ref option := by
  rw [filed, hs.disk]
  rfl

theorem holds_of_held {config ref : String} (hs : Held config c h) :
    holds h config ref = (c.find ref).isSome := by
  rw [holds, hs.disk]
  rfl

theorem get_cleaned {o : String} (hkept : isGateway = true ∨ b.base ≠ "lan") :
    (cleaned isGateway c).get b.base o = c.get b.base o := by
  unfold cleaned
  split
  · rfl
  · next hpoint => exact get_withoutSection b.plain b.named (hkept.resolve_left hpoint)

theorem get_reservedNetwork {o v : String} (hne : staticIP ≠ "")
    (hlast : lastWrite [("proto", "static"), ("netmask", "255.255.0.0"), ("ipaddr", staticIP),
      ("device", b.iface), ("ip6assign", "64"), ("ip6ifaceid", "eui64"), ("ip6class", "local")] o =
        some v) :
    (reservedNetwork b network staticIP).get b.base o = [v] := by
  refine get_withSection b.plain (by decide) ?_
  rwa [options_network hne]

theorem get_reservedDHCP {o v : String} {start : Int64}
    (hlast : lastWrite [("interface", b.base), ("start", toString start.toInt), ("limit", "16"),
      ("leasetime", "12h"), ("force", "1")] o = some v) :
    (reservedDHCP b dhcp start).get b.base o = [v] := by
  refine get_withSection b.plain (by decide) ?_
  rwa [options_dhcp]

/-- **What is written is a reservation**, unless the clean-up takes its sections. -/
theorem completed_iff {start : Int64} (hip : p.staticIP isGateway = .ok staticIP)
    (hwindow : p.window = .ok start)
    (hs : Holding mark (cleaned isGateway (reservedNetwork b network staticIP))
      (cleaned isGateway (reservedDHCP b dhcp start)) h) :
    Completed b p isGateway true h ↔ isGateway = true ∨ b.base ≠ "lan" := by
  have hne := ne_empty_of_staticIP hip
  constructor
  · intro hc
    by_contra hgone
    obtain ⟨hpoint, hlan⟩ : isGateway = false ∧ b.base = "lan" := by simpa using hgone
    obtain ⟨_, -, -, -, haddress, -⟩ := hc.reserved.address
    have hnone : ((cleaned isGateway (reservedNetwork b network staticIP)).find b.base) = none := by
      rw [hpoint, hlan]
      exact find_withoutSection (by decide) (by decide)
    rw [filed_of_held hs.network, Config.get, hnone] at haddress
    cases haddress
  · intro hkept
    have hnetwork : ∀ o, filed h "network" b.base o =
        (reservedNetwork b network staticIP).get b.base o := fun o => by
      rw [filed_of_held hs.network, get_cleaned hkept]
    have hdhcp : ∀ o, filed h "dhcp" b.base o = (reservedDHCP b dhcp start).get b.base o :=
      fun o => by rw [filed_of_held hs.dhcp, get_cleaned hkept]
    refine ⟨⟨⟨staticIP, hip, (select_mem hip).1, (select_mem hip).2, ?_, ?_, ?_, ?_⟩,
      ⟨start, hwindow, ?_, ?_, ?_, ?_, ?_⟩⟩, fun hpoint => ?_, rfl⟩
    · exact (hnetwork _).trans (get_reservedNetwork hne rfl)
    · exact (hnetwork _).trans (get_reservedNetwork hne rfl)
    · exact (hnetwork _).trans (get_reservedNetwork hne rfl)
    · exact (hnetwork _).trans (get_reservedNetwork hne rfl)
    · exact (hdhcp _).trans (get_reservedDHCP rfl)
    · exact (hdhcp _).trans (get_reservedDHCP rfl)
    · exact (hdhcp _).trans (get_reservedDHCP rfl)
    · exact (hdhcp _).trans (get_reservedDHCP rfl)
    · exact (hdhcp _).trans (get_reservedDHCP rfl)
    · have hnone : ∀ c', (cleaned isGateway c').find "lan" = none := by
        intro c'
        rw [hpoint]
        exact find_withoutSection (by decide) (by decide)
      rw [holds_of_held hs.network, holds_of_held hs.dhcp, hnone, hnone]
      exact ⟨rfl, rfl⟩

/-! ## The next tick -/

theorem reserves_iff {configured : Bool} {mac : String} {ips : List String} {nodes : List MeshNode} :
    reserves toLower configured mac ips nodes = true ↔
      configured = false ∨ yieldsAddress toLower mac (findIPConflicts ips nodes) = true := by
  unfold reserves
  cases configured with
  | false => simp
  | true =>
    cases findIPConflicts ips nodes with
    | nil => simp [yieldsAddress]
    | cons node rest => simp

/-- **A tick that succeeds** is idle, or reserves as the mark and the conflicts say. -/
theorem leaves_reservationTick (hpeers : w.peers = .ok p) :
    Leaves (reservationTick toLower b w) h fun requested h' =>
      (requested = true ↔ Unmarked h ∨ Moves toLower w p) ∧
        (requested = true → ∃ isGateway staticIP start mark network dhcp,
          w.meshConfig = .ok isGateway ∧ p.staticIP isGateway = .ok staticIP ∧
            p.window = .ok start ∧
            Holding mark (cleaned isGateway (reservedNetwork b network staticIP))
              (cleaned isGateway (reservedDHCP b dhcp start)) h') := by
  unfold reservationTick reserveOnceWithDeps
  rw [leaves_bind]
  intro _ h₁ hreload
  obtain ⟨mark, network, dhcp, hdisk, hs⟩ := leaves_reloadUCIConfigs _ _ hreload
  rw [leaves_bind, leaves_tree, hs.openmanetd.mem, leaves_bind, leaves_given]
  intro configured hconfigured
  have hmarked : configured = false ↔ Unmarked h := by
    rw [Unmarked, hdisk, hconfigured, Except.ok.injEq]
  rw [leaves_bind, leaves_given]
  intro p' hp'
  obtain rfl : p = p' := Except.ok.inj (hpeers.symm.trans hp')
  rw [leaves_ite, reserves_iff, hmarked]
  constructor
  · intro hdecides
    rw [leaves_bind]
    refine (leaves_applyReservation hs).mono fun _ h₂ hdone => ?_
    obtain ⟨isGateway, staticIP, start, hmesh, hip, hwindow, hs₂⟩ := hdone
    exact (leaves_pure _).2 ⟨iff_of_true rfl hdecides, fun _ =>
      ⟨isGateway, staticIP, start, _, network, dhcp, hmesh, hip, hwindow, hs₂⟩⟩
  · intro hidle
    exact (leaves_pure _).2 ⟨iff_of_false nofun hidle, nofun⟩

/-! ## The failing tick -/

section Failing

variable {w₁ w₂ : Surroundings} {p₁ : Peers} {h₀ h₁ h₂ : Host} {stage : Stage} {requested : Bool}

/-- **The stages are all there is**: a reservation fails at one of them. -/
theorem applyReservation_fails_iff {iface : String} :
    (∃ e, applyReservationWithDeps iface w p h₀ = .error e h₁) ↔
      ∃ stage, FailsAt iface w p h₀ h₁ stage := by
  unfold applyReservationWithDeps
  constructor
  · rintro ⟨e, hrun⟩
    rcases bind_eq_error.1 hrun with hwrite | ⟨isGateway, h₂, hwrite, hrest⟩
    · exact ⟨.writes, e, hwrite⟩
    · rcases bind_eq_error.1 hrest with hmark | ⟨_, h₃, hmark, hfinish⟩
      · obtain ⟨e', hmark'⟩ := saying_eq_error.1 ⟨e, hmark⟩
        exact ⟨.mark, isGateway, h₂, e', hwrite, hmark'⟩
      · exact ⟨.finish, isGateway, h₂, h₃, e, hwrite, saying_eq_ok.1 hmark, hfinish⟩
  · rintro ⟨stage, hfails⟩
    cases stage with
    | writes =>
      obtain ⟨e, hwrite⟩ := hfails
      exact ⟨e, bind_of_error hwrite⟩
    | mark =>
      obtain ⟨isGateway, h₂, e, hwrite, hmark⟩ := hfails
      obtain ⟨e', hmark'⟩ := saying_eq_error.2 ⟨e, hmark⟩
      exact ⟨e', (bind_of_ok hwrite).trans (bind_of_error hmark')⟩
    | finish =>
      obtain ⟨isGateway, h₂, h₃, e, hwrite, hmark, hfinish⟩ := hfails
      exact ⟨e, (bind_of_ok hwrite).trans ((bind_of_ok (saying_eq_ok.2 hmark)).trans hfinish)⟩

/-- A tick that reads the configs, the mark and the peers fails where its reservation
does. -/
theorem failedTick_iff {configured : Bool} (hreload : reloadUCIConfigs h₀ = .ok () h)
    (hconfigured : dhcpConfigured (h₀.tree.disk "openmanetd") = .ok configured)
    (hpeers : w.peers = .ok p) :
    (∃ e, reservationTick toLower b w h₀ = .error e h₁) ↔
      ∃ stage, FailedTick toLower b w p stage h₀ h₁ := by
  obtain ⟨mark, network, dhcp, hdisk, hs⟩ := leaves_reloadUCIConfigs _ _ hreload
  have hcheck : given "check DHCP configuration" (dhcpConfigured (h.tree.mem "openmanetd")) h =
      .ok configured h := by
    rw [hs.openmanetd.mem, ← hdisk, hconfigured]
    rfl
  have hlist : given "list mesh nodes" w.peers h = .ok p h := by
    rw [hpeers]
    rfl
  have htree : tree h = .ok h.tree h := rfl
  have hrun : reservationTick toLower b w h₀ =
      (if reserves toLower configured w.mac w.ips p.nodes then do
        applyReservationWithDeps b.iface w p
        pure true
      else pure false : Prog Bool) h := by
    unfold reservationTick reserveOnceWithDeps
    rw [bind_of_ok hreload, bind_of_ok htree, bind_of_ok hcheck, bind_of_ok hlist]
  rw [hrun]
  cases hreserves : reserves toLower configured w.mac w.ips p.nodes with
  | true =>
    rw [if_pos rfl]
    constructor
    · rintro ⟨e, hfails⟩
      rcases bind_eq_error.1 hfails with happly | ⟨_, _, -, hpure⟩
      · obtain ⟨stage, hstage⟩ := applyReservation_fails_iff.1 ⟨e, happly⟩
        exact ⟨stage, hpeers, ⟨configured, hconfigured, hreserves⟩, h, hreload, hstage⟩
      · cases hpure
    · rintro ⟨stage, -, -, h', hreload', hstage⟩
      obtain ⟨-, rfl⟩ := EStateM.Result.ok.inj (hreload.symm.trans hreload')
      obtain ⟨e, happly⟩ := applyReservation_fails_iff.2 ⟨stage, hstage⟩
      exact ⟨e, bind_of_error happly⟩
  | false =>
    refine iff_of_false ?_ ?_
    · rintro ⟨e, hpure⟩
      cases hpure
    · rintro ⟨stage, -, ⟨configured', hconfigured', hreserves'⟩, -⟩
      obtain rfl : configured = configured' := Except.ok.inj (hconfigured.symm.trans hconfigured')
      rw [hreserves] at hreserves'
      cases hreserves'

/-- **What a failed reservation leaves of the mark.** -/
theorem FailedTick.unmarked_iff (hfail : FailedTick toLower b w₁ p₁ stage h₀ h₁) :
    Unmarked h₁ ↔ stage.Retried h₀ h₁ := by
  obtain ⟨h, hreload, hfails⟩ := hfail.fails
  obtain ⟨mark, network, dhcp, hdisk, hs⟩ := leaves_reloadUCIConfigs _ _ hreload
  cases stage with
  | writes =>
    obtain ⟨e, hwrite⟩ := hfails
    have hkept : Held "openmanetd" mark h₁ := guards_writeReservation.error hwrite hs.openmanetd
    rw [Stage.Retried, Unmarked, Unmarked, hkept.disk, hdisk]
  | mark => exact Iff.rfl
  | finish =>
    obtain ⟨isGateway, h₂, h₃, e, hwrite, hmark, hfinish⟩ := hfails
    have hkept₂ : Held "openmanetd" mark h₂ := guards_writeReservation.ok hwrite hs.openmanetd
    have hkept₃ := (ends_setDHCPConfigured hkept₂).leaves _ _ hmark
    have hkept₁ : Held "openmanetd" (marked mark) h₁ :=
      guards_finishReservation.error hfinish hkept₃
    refine iff_of_false ?_ id
    rw [Unmarked, hkept₁.disk, dhcpConfigured_marked]
    nofun

/-- **A reservation that failed is completed by the next tick, if and only if the tick
finds no mark or a conflict to move out of**, and the clean-up spares its sections. -/
theorem reservation_completed_iff (hfail : FailedTick toLower b w₁ p₁ stage h₀ h₁)
    (hnext : reservationTick toLower b w₂ h₁ = .ok requested h₂) (hpeers : w₂.peers = .ok p)
    (hrole : w₂.meshConfig = .ok isGateway) :
    Completed b p isGateway requested h₂ ↔
      (stage.Retried h₀ h₁ ∨ Moves toLower w₂ p) ∧ (isGateway = true ∨ b.base ≠ "lan") := by
  obtain ⟨hdecides, hdone⟩ := leaves_reservationTick hpeers _ _ hnext
  rw [← hfail.unmarked_iff, ← hdecides]
  constructor
  · intro hc
    obtain rfl := hc.rebooted
    obtain ⟨isGateway', staticIP, start, mark, network, dhcp, hmesh, hip, hwindow, hs⟩ := hdone rfl
    obtain rfl : isGateway = isGateway' := Except.ok.inj (hrole.symm.trans hmesh)
    exact ⟨rfl, (completed_iff hip hwindow hs).1 hc⟩
  · rintro ⟨rfl, hkept⟩
    obtain ⟨isGateway', staticIP, start, mark, network, dhcp, hmesh, hip, hwindow, hs⟩ := hdone rfl
    obtain rfl : isGateway = isGateway' := Except.ok.inj (hrole.symm.trans hmesh)
    exact (completed_iff hip hwindow hs).2 hkept

end Failing

end Steps

/-! ## On a new gateway -/

/-- A node with empty configs. -/
def newNode : Host where
  tree := ⟨fun _ => some .empty, fun _ => some .empty, fun _ => false⟩
  tick := 0
  fate := ⟨fun _ => false, fun _ _ => false⟩

/-- It has no peers. -/
def noPeers : Peers where
  nodes := []
  sorted := ⟨[], .nil, .nil⟩
  draws := zeroDraws
  window := .ok 100
  found := ⟨0, by decide +kernel⟩

/-- A gateway, by what it reads of the mesh and what becomes of the reboot. -/
def gateway (meshConfig : Except String Bool) (reboot : Except String Unit) : Surroundings where
  peers := .ok noPeers
  mac := "02:00:00:00:00:01"
  ips := []
  meshConfig := meshConfig
  reloadNetwork := .ok ()
  reboot := reboot

/-- The bridge of the mesh. -/
def ahwlan : Bridge := ⟨"ahwlan", by decide, by decide⟩

/-- What was not written is written by the next tick. -/
theorem reservation_completed_iff_meshConfig : ∃ h₁ h₂,
    FailedTick id ahwlan (gateway (.error "batctl: no such device") (.ok ())) noPeers .writes
        newNode h₁ ∧
      reservationTick id ahwlan (gateway (.ok true) (.ok ())) h₁ = .ok true h₂ ∧
      Completed ahwlan noPeers true true h₂ := by
  have hreload : reloadUCIConfigs newNode = .ok () (final reloadUCIConfigs newNode) :=
    ok_of_succeeds (by decide +kernel)
  have hunmarked : Unmarked newNode := by
    show dhcpConfigured (some .empty) = .ok false
    decide +kernel
  have hfail : FailedTick id ahwlan (gateway (.error "batctl: no such device") (.ok ())) noPeers
      .writes newNode (final reloadUCIConfigs newNode) :=
    ⟨rfl, ⟨false, hunmarked, rfl⟩, _, hreload, _, rfl⟩
  have hnext : reservationTick id ahwlan (gateway (.ok true) (.ok ()))
      (final reloadUCIConfigs newNode) = .ok true _ := ok_of_answer (by decide +kernel)
  exact ⟨_, _, hfail, hnext, (reservation_completed_iff hfail hnext rfl rfl).2
    ⟨.inl hunmarked, .inl rfl⟩⟩

/-- A reboot that was refused is not asked for again. -/
theorem reservation_not_completed :
    ¬ ∀ (toLower : String → String) (b : Bridge) (w₁ w₂ : Surroundings) (p : Peers)
      (stage : Stage) (h₀ h₁ h₂ : Host) (requested isGateway : Bool),
      FailedTick toLower b w₁ p stage h₀ h₁ →
      reservationTick toLower b w₂ h₁ = .ok requested h₂ → w₂.peers = .ok p →
      w₂.meshConfig = .ok isGateway → Completed b p isGateway requested h₂ := by
  intro hall
  have hreload : reloadUCIConfigs newNode = .ok () (final reloadUCIConfigs newNode) :=
    ok_of_succeeds (by decide +kernel)
  have hunmarked : dhcpConfigured (newNode.tree.disk "openmanetd") = .ok false := by
    show dhcpConfigured (some .empty) = .ok false
    decide +kernel
  have hrefused : ∃ e, reservationTick id ahwlan (gateway (.ok true) (.error "reboot: refused"))
      newNode = .error e _ := error_of_answer (by decide +kernel)
  obtain ⟨stage, hfail⟩ := (failedTick_iff hreload hunmarked rfl).1 hrefused
  have hidle : reservationTick id ahwlan (gateway (.ok true) (.ok ())) _ = .ok false _ :=
    ok_of_answer (s := final (reservationTick id ahwlan
      (gateway (.ok true) (.error "reboot: refused"))) newNode) (by decide +kernel)
  have hdone := hall id ahwlan _ _ noPeers stage newNode _ _ false true hfail hidle rfl rfl
  exact absurd hdone.rebooted (by decide)

end Mgmt

end OpenManet
