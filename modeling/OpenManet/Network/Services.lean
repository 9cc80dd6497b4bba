import OpenManet.Network.Interfaces
/-!
# The service configs

The helpers over the firewall, dhcp, system, umdns and mesh11sd configs that
the setup wizard resets and rebuilds.
-/

namespace OpenManet

namespace Network

open Uci Fallible

/-- The names tried for a new section: the base, then the base with a
number. -/
def numbered (base : String) : Nat → String
  | 0 => base
  | i + 1 => base ++ Nat.repr (i + 1)

/-- The first name that is free, of as many as are tried. -/
def firstFree (taken : String → Prog Bool) (base : String) : Nat → Nat → Prog String
  | 0, _ => fail "no free name"
  | tries + 1, i => do
      if ← taken (numbered base i) then firstFree taken base tries (i + 1)
      else pure (numbered base i)

/-- The sections of a config. -/
def sectionCount (t : Tree) (config : String) : Nat :=
  match t.mem config with
  | some c => c.sections.length
  | none => 0

/-! ## Firewall -/

/-- Deletes every rule, the last one first, so that the places of those
still to be deleted hold. -/
def removeAllRules : Prog Unit := do
  let sections ← saying "listing rule sections" (getSections "firewall" "rule")
  sections.reverse.forM fun s => saying ("deleting " ++ s) (delSection "firewall" s)

def whitelistAndDisableForwardings : Prog Unit := do
  let sections ← saying "listing forwarding sections" (getSections "firewall" "forwarding")
  sections.forM fun s => saying ("disabling " ++ s) (setType "firewall" s "enabled" ["0"])

def unsetMtuFixAndMasq : Prog Unit := do
  let sections ← saying "listing zone sections" (getSections "firewall" "zone")
  sections.forM fun s => do
    saying ("unsetting mtu_fix on " ++ s) (del "firewall" s "mtu_fix")
    saying ("unsetting masq on " ++ s) (del "firewall" s "masq")

/-- The name of the zone that holds a network, empty when none does. -/
def zoneNameFor (networkID : String) : Prog String := do
  let sections ← saying "listing zone sections" (getSections "firewall" "zone")
  let t ← tree
  match sections.find? fun s => networkID ∈ t.get "firewall" s "network" with
  | some s => pure ((t.get "firewall" s "name").head?.getD "")
  | none => pure ""

def zoneSectionByName (name : String) : Prog String := do
  let sections ← saying "listing zone sections" (getSections "firewall" "zone")
  let t ← tree
  pure ((sections.find? fun s => (t.get "firewall" s "name").head? == some name).getD "")

/-- The name is in use, by a section or as a zone's own. -/
def zoneNameOrSectionExists (name : String) : Prog Bool := do
  let zones ← saying "listing zone sections" (getSections "firewall" "zone")
  let t ← tree
  if zones.any fun s => s == name || (t.get "firewall" s "name").head? == some name then pure true
  else do
    let forwardings ← saying "listing forwarding sections" (getSections "firewall" "forwarding")
    if forwardings.contains name then pure true
    else do
      let rules ← saying "listing rule sections" (getSections "firewall" "rule")
      pure (rules.contains name)

def getOrCreateZone (networkID : String) : Prog String :=
  if networkID = "" then fail "networkID cannot be empty"
  else do
    let zoneName ← zoneNameFor networkID
    if zoneName ≠ "" then pure zoneName
    else do
      -- two names at most go with each section, so one of these is free
      let tries := 2 * sectionCount (← tree) "firewall" + 1
      let proposedName ← firstFree zoneNameOrSectionExists networkID tries 0
      saying "creating zone section" (addSection "firewall" proposedName "zone")
      [("name", proposedName), ("network", networkID), ("input", "ACCEPT"), ("output", "ACCEPT"),
        ("forward", "ACCEPT")].forM fun w => setType "firewall" proposedName w.1 [w.2]
      pure proposedName

def matchesForwarding (t : Tree) (sectionName src dest : String) : Bool :=
  (t.get "firewall" sectionName "src").head? == some src
    && (t.get "firewall" sectionName "dest").head? == some dest

/-- A forwarding is on unless it says `0`. -/
def forwardingEnabled (t : Tree) (sectionName : String) : Bool :=
  match t.get "firewall" sectionName "enabled" with
  | v :: _ => v != "0"
  | [] => true

def setDestZoneNATOptions (dest : String) (natOnDest : Bool) : Prog Unit := do
  let destSection ← zoneSectionByName dest
  if destSection = "" then pure ()
  else do
    setType "firewall" destSection "mtu_fix" ["1"]
    if natOnDest then setType "firewall" destSection "masq" ["1"]
    else pure ()

def disableOtherForwardingsFromSrc (sections : List String) (src : String) : Prog Unit :=
  sections.forM fun s => do
    if ((← tree).get "firewall" s "src").head? = some src then
      setType "firewall" s "enabled" ["0"]
    else pure ()

def getOrCreateForwarding (src dest name : String) (natOnDest : Bool) : Prog String :=
  if src = "" ∨ dest = "" then fail "src and dest are required"
  else do
    let sections ← saying "listing forwarding sections" (getSections "firewall" "forwarding")
    let t ← tree
    match sections.find? fun s => matchesForwarding t s src dest && forwardingEnabled t s with
    | some s => pure s
    | none => do
        setDestZoneNATOptions dest natOnDest
        disableOtherForwardingsFromSrc sections src
        let t ← tree
        match sections.find? fun s => matchesForwarding t s src dest with
        | some s => do
            -- unset rather than "1": a fresh forwarding never writes the option
            saying ("clearing enabled on " ++ s) (del "firewall" s "enabled")
            pure s
        | none => do
            let sectionName := if name = "" then "wizard_fwd_" ++ Nat.repr sections.length else name
            saying "creating forwarding section" (addSection "firewall" sectionName "forwarding")
            setType "firewall" sectionName "src" [src]
            setType "firewall" sectionName "dest" [dest]
            pure sectionName

def setZoneOption (zoneName key value : String) : Prog Unit :=
  if zoneName = "" then fail "zoneName cannot be empty"
  else do
    let sectionName ← zoneSectionByName zoneName
    if sectionName = "" then fail ("firewall zone \"" ++ zoneName ++ "\" not found")
    else setType "firewall" sectionName key [value]

def appendZoneNetwork (zoneName networkName : String) : Prog Unit :=
  if zoneName = "" then fail "zoneName cannot be empty"
  else if networkName = "" then fail "networkName cannot be empty"
  else do
    let sectionName ← zoneSectionByName zoneName
    if sectionName = "" then fail ("firewall zone \"" ++ zoneName ++ "\" not found")
    else do
      let existing := (← tree).get "firewall" sectionName "network"
      if networkName ∈ existing then pure ()
      else setType "firewall" sectionName "network" (existing ++ [networkName])

/-- A rule of the default set; an empty field is not written. -/
structure FirewallRule where
  name : String
  src : String := ""
  dest : String := ""
  srcIP : String := ""
  destIP : String := ""
  proto : String := ""
  destPort : String := ""
  icmpType : List String := []
  limit : String := ""
  target : String := "ACCEPT"
  family : String := ""

/-- The options of a rule in write order. -/
def FirewallRule.writes (r : FirewallRule) : List (String × List String) :=
  [("name", [r.name]), ("src", [r.src]), ("dest", [r.dest]), ("src_ip", [r.srcIP]),
    ("dest_ip", [r.destIP]), ("proto", [r.proto]), ("dest_port", [r.destPort]),
    ("icmp_type", r.icmpType), ("limit", [r.limit]), ("target", [r.target]),
    ("family", [r.family])].filter fun w => w.2 ≠ [] ∧ w.2 ≠ [""]

def icmpv6Common : List String :=
  ["echo-request", "echo-reply", "destination-unreachable", "packet-too-big", "time-exceeded",
    "bad-header", "unknown-header-type"]

def defaultWanFirewallRules (localZone : String) : List FirewallRule :=
  [{ name := "Allow-DHCP-Renew", src := "wan", proto := "udp", destPort := "68", family := "ipv4" },
    { name := "Allow-Ping", src := "wan", proto := "icmp", icmpType := ["echo-request"],
      family := "ipv4" },
    { name := "Allow-IGMP", src := "wan", proto := "igmp", family := "ipv4" },
    { name := "Allow-DHCPv6", src := "wan", proto := "udp", destPort := "546", family := "ipv6" },
    { name := "Allow-MLD", src := "wan", proto := "icmp", srcIP := "fe80::/10",
      icmpType := ["130/0", "131/0", "132/0", "143/0"], family := "ipv6" },
    { name := "Allow-ICMPv6-Input", src := "wan", proto := "icmp",
      icmpType := icmpv6Common ++ ["router-solicitation", "neighbour-solicitation",
        "router-advertisement", "neighbour-advertisement"],
      limit := "1000/sec", family := "ipv6" },
    { name := "Allow-ICMPv6-Forward", src := "wan", dest := "*", proto := "icmp",
      icmpType := icmpv6Common, limit := "1000/sec", family := "ipv6" },
    { name := "Allow-IPSec-ESP", src := "wan", dest := "*", proto := "esp" },
    { name := "Allow-ISAKMP", src := "wan", dest := "*", destPort := "500", proto := "udp" },
    { name := "Allow Batman Mesh TCP 4242", src := "*", dest := "*", destPort := "4242",
      proto := "tcp" },
    { name := "Allow Incoming Comms", src := "*", destIP := "239.192.41.1", dest := "*",
      destPort := "38801-38864", proto := "udp" },
    { name := "Block-DHCP-Request-Out-" ++ localZone, src := localZone, dest := "*",
      proto := "udp", destPort := "67", target := "DROP", family := "ipv4" },
    { name := "Block-DHCP-Response-In-" ++ localZone, src := "*", dest := localZone,
      proto := "udp", destPort := "68", target := "DROP", family := "ipv4" }]

/-- A display name as part of a section name: letters in lower case and
digits, each run of anything else one underscore. -/
def ruleSlug : Bool → List Char → List Char
  | _, [] => []
  | afterUnderscore, c :: rest =>
      let l := Text.lowerRune c
      if ('a' ≤ l ∧ l ≤ 'z') ∨ ('0' ≤ l ∧ l ≤ '9') then l :: ruleSlug false rest
      else if afterUnderscore then ruleSlug true rest
      else '_' :: ruleSlug true rest

def wizardRuleSectionName (displayName : String) (priorIndex : Nat) : String :=
  "wizard_rule_" ++ String.ofList (ruleSlug false displayName.toList) ++ "_" ++ Nat.repr priorIndex

def addAnonymousRule (r : FirewallRule) : Prog Unit := do
  let prior ← saying "listing firewall.rule sections" (getSections "firewall" "rule")
  let sectionName := wizardRuleSectionName r.name prior.length
  saying "adding rule section" (addSection "firewall" sectionName "rule")
  r.writes.forM fun w =>
    saying ("set firewall." ++ sectionName ++ "." ++ w.1) (setType "firewall" sectionName w.1 w.2)

def addDefaultWanFirewallRules (localZone : String) : Prog Unit :=
  if localZone = "" then fail "localZone cannot be empty"
  else (defaultWanFirewallRules localZone).forM fun r =>
    saying ("adding rule \"" ++ r.name ++ "\"") (addAnonymousRule r)

/-! ## DHCP -/

def wizardDnsmasqWhitelist : List String :=
  ["authoritative", "domainneeded", "localize_queries", "readethers", "local", "domain",
    "expandhosts", "localservice", "cachesize", "ednspacket_max", "rebind_localhost"]

def allDnsmasqOptions : List String :=
  wizardDnsmasqWhitelist ++
    ["interface", "notinterface", "localuse", "rebind_protection", "boguspriv"]

def wizardDhcpPoolWhitelist : List String := ["start", "leasetime", "limit", "interface"]

def allDhcpPoolOptions : List String :=
  ["interface", "start", "limit", "leasetime", "ignore", "force", "ra", "ra_slaac", "ra_flags",
    "dns", "dns_service", "dhcp_option", "instance"]

def whitelistDnsmasqSurvivor (dnsmasqName : String) (allowList : List String) : Prog Unit :=
  if dnsmasqName = "" then fail "dnsmasqName cannot be empty"
  else whitelistFields "dhcp" dnsmasqName allDnsmasqOptions allowList

def whitelistAndIgnoreAllPools : Prog Unit := do
  let sections ← saying "listing dhcp pools" (getSections "dhcp" "dhcp")
  sections.forM fun s => do
    whitelistFields "dhcp" s allDhcpPoolOptions wizardDhcpPoolWhitelist
    saying (setting "dhcp" s "ignore") (setType "dhcp" s "ignore" ["1"])

/-- An option that is written only where the read finds nothing. -/
def backfill (sectionName option value : String) : Prog Unit := do
  if (← tree).found "dhcp" sectionName then pure ()
  else saying (setting "dhcp" sectionName option) (setType "dhcp" sectionName option [value])

/-- The options of a pool. `start` is the offset drawn for it. -/
def backfillPoolOptions (sectionName networkID : String)
    (extraOptions : List (String × List String)) (start : Nat) : Prog Unit := do
  backfill sectionName "start" (Nat.repr start)
  backfill sectionName "limit" "16"
  backfill sectionName "leasetime" "12h"
  setOptions "dhcp" sectionName (setting "dhcp" sectionName) [("interface", networkID), ("force", "1")]
  extraOptions.forM fun w => saying (setting "dhcp" sectionName w.1) (setType "dhcp" sectionName w.1 w.2)

/-- The name of a new pool is in use. -/
def poolNameTaken (name : String) : Prog Bool := do
  if (← tree).found "dhcp" name then pure true
  else do
    let sections ← saying "listing dhcp pools" (getSections "dhcp" "dhcp")
    pure (sections.contains name)

def createDhcpPool (networkID : String) (extraOptions : List (String × List String))
    (start : Nat) : Prog String :=
  if networkID = "" then fail "networkID cannot be empty"
  else do
    let tries := sectionCount (← tree) "dhcp" + 1
    let proposedName ← firstFree poolNameTaken networkID tries 0
    saying "adding dhcp section" (addSection "dhcp" proposedName "dhcp")
    backfillPoolOptions proposedName networkID extraOptions start
    pure proposedName

def getOrCreateDhcpPool (networkID : String) (extraOptions : List (String × List String))
    (start : Nat) : Prog String :=
  if networkID = "" then fail "networkID cannot be empty"
  else do
    let sections ← saying "listing dhcp pools" (getSections "dhcp" "dhcp")
    let t ← tree
    let serving := sections.filter fun s => (t.get "dhcp" s "interface").head? == some networkID
    match serving.find? fun s => (t.get "dhcp" s "ignore").head? != some "1" with
    | some s => do
        backfillPoolOptions s networkID extraOptions start
        pure s
    | none =>
        match serving with
        | s :: _ => do
            ["ignore", "instance"].forM fun option =>
              saying ("clearing " ++ option ++ " on " ++ s) (del "dhcp" s option)
            backfillPoolOptions s networkID extraOptions start
            pure s
        | [] => createDhcpPool networkID extraOptions start

/-- The instance is bound to a network of its own. -/
def dnsmasqIsScoped (t : Tree) (sectionName : String) : Bool :=
  t.get "dhcp" sectionName "interface" ≠ []
    || (t.get "dhcp" sectionName "notinterface").any fun n => n ≠ "loopback" && n ≠ ""

/-- Deletes the scoped instances, and all the others too when more than one
is left; a single survivor keeps the listed options. -/
def whitelistDnsmasqSurvivors : Prog Unit := do
  let sections ← saying "listing dnsmasq sections" (getSections "dhcp" "dnsmasq")
  let survivors ← sections.foldlM (fun survivors s => do
    if dnsmasqIsScoped (← tree) s then do
      saying ("removing scoped dnsmasq " ++ s) (delSection "dhcp" s)
      pure survivors
    else pure (survivors ++ [s])) []
  if 1 < survivors.length then
    survivors.forM fun s => saying ("removing redundant dnsmasq " ++ s) (delSection "dhcp" s)
  else
    survivors.forM fun s =>
      saying ("whitelisting dnsmasq " ++ s) (whitelistDnsmasqSurvivor s wizardDnsmasqWhitelist)

/-! ## System, umdns and mesh11sd -/

def firstSystemSection : Prog String := do
  match ← saying "listing system sections" (getSections "system" "system") with
  | s :: _ => pure s
  | [] => fail "no 'system' section found in UCI system config"

def stageSystemHostname (hostname : String) : Prog Unit :=
  if hostname = "" then fail "hostname cannot be empty"
  else do
    let sectionName ← firstSystemSection
    setOptions "system" sectionName (setting "system" sectionName) [("hostname", hostname)]

def stageSystemTimezone (zonename posixTZ : String) : Prog Unit :=
  if zonename = "" ∨ posixTZ = "" then fail "zonename and posixTZ are required"
  else do
    let sectionName ← firstSystemSection
    setOptions "system" sectionName (setting "system" sectionName)
      [("zonename", zonename), ("timezone", posixTZ)]

/-- A missing file counts as no sections; the config then comes into being
in memory. -/
def stageUmdnsNetworks (networks : List String) : Prog Unit :=
  if networks = [] then fail "networks are required"
  else do
    let sections ← attempt (getSections "umdns" "umdns")
    match sections with
    | .error e =>
        if e.notExist then do
          saying "creating umdns section" (addSection "umdns" "wizard_umdns" "umdns")
          saying "setting umdns network list" (setType "umdns" "wizard_umdns" "network" networks)
        else throw { e with text := "listing umdns sections: " ++ e.text }
    | .ok (s :: _) => saying "setting umdns network list" (setType "umdns" s "network" networks)
    | .ok [] => do
        saying "creating umdns section" (addSection "umdns" "wizard_umdns" "umdns")
        saying "setting umdns network list" (setType "umdns" "wizard_umdns" "network" networks)

/-- A flag of the mesh11sd config. -/
def setMesh11sd (sectionName option value : String) : Prog Unit :=
  if value ≠ "0" ∧ value ≠ "1" then
    fail ("mesh11sd." ++ sectionName ++ "." ++ option ++ " must be \"0\" or \"1\", got \"" ++ value
      ++ "\"")
  else saying (setting "mesh11sd" sectionName option) (setType "mesh11sd" sectionName option [value])

def setMeshGateAnnouncements : String → Prog Unit :=
  setMesh11sd "mesh_params" "mesh_gate_announcements"

def setMeshFwding : String → Prog Unit := setMesh11sd "mesh_params" "mesh_fwding"

def setMeshNolearn : String → Prog Unit := setMesh11sd "mesh_params" "mesh_nolearn"

def setMesh11sdSetupEnabled : String → Prog Unit := setMesh11sd "setup" "enabled"

end Network

end OpenManet
