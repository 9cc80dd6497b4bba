import OpenManet.Setup.Phases
/-!
# Applying a profile

`applySetup` and the calls around it. A phase sends word when it starts and
when it ends; the phases up to the password are undone from a snapshot when
one fails, and the last two are not. The flags of the daemon's own config
are flipped last.

A `World` is the answers of everything but the UCI tree: the stream to the
client, the init scripts, the password setter, the files behind the snapshot
and the daemon's config file.
-/

namespace OpenManet

namespace Setup

open Uci Fallible Network

inductive Phase where
  | validate
  | snapshot
  | resetWireless
  | resetNetwork
  | hostname
  | setTimezone
  | baseNetwork
  | wirelessMesh
  | perRadioApSta
  | scenarioTopology
  | batmanAdv
  | mesh11sd
  | commit
  | password
  | reloadServices
  | persistFlags
  | terminal
deriving DecidableEq

inductive Status where
  | started
  | done
  | failed
deriving DecidableEq

/-- What the terminal event reports. -/
structure Result where
  success : Bool
  failedPhase : Option Phase
  expectedSsid : String
  expectedUrl : String

/-- One event of the response stream. -/
structure Event where
  phase : Phase
  status : Status
  message : String
  result : Option Result

/-- The answers of the world to one run. -/
structure World where
  /-- The client takes the event. -/
  delivers : Phase → Status → Bool
  reloads : String → Bool
  restarts : String → Bool
  setsPassword : Bool
  /-- The file is read for the snapshot. -/
  readsFile : String → Bool
  /-- The file is put back from the snapshot. -/
  writesFile : String → Bool
  /-- The daemon's config file is rewritten. -/
  persists : Bool

/-- The device the wizard runs on. -/
structure Device where
  host : Host
  setupEnabled : Bool
  setupComplete : Bool
  authEnable : Bool
  /-- The admin password, once the wizard has set one. -/
  password : Option String
  /-- The events delivered. -/
  sent : List Event

/-- The status of a call that failed. -/
inductive Code where
  | invalidArgument
  | unavailable
  | failedPrecondition
  | internal
deriving DecidableEq

/-- What the caller is told of a failed run, and the phase it failed in. -/
structure Fault where
  code : Code
  phase : Option Phase
  text : String

/-- A program of the service. -/
abbrev App := EStateM Err Device

/-- A program over the tree, as one of the service. -/
def onTree {ε α : Type} (m : EStateM ε Host α) : EStateM ε Device α :=
  zoom Device.host (fun h d => { d with host := h }) m

/-- The configs the wizard touches. -/
def wizardConfigs : List String :=
  ["wireless", "network", "dhcp", "firewall", "system", "mesh11sd", "umdns", "openmanetd", "luci"]

/-- The files as they were, configs without a file included. -/
abbrev Snapshot := List (String × Option Config)

/-! ## Setup status -/

/-- A wizard, LuCI's or this one, has marked the device configured. -/
def legacyLuciWizardUsed (t : Tree) : Bool :=
  match t.get "luci" "wizard" "used" with
  | v :: _ =>
      ["1".toList, "true".toList, "yes".toList, "on".toList].contains
        ((Text.trimSpace v.toList).map Text.lowerRune)
  | [] => false

/-- The image's own hostname: `BCM`, digits, a dash and hex digits. -/
def isFactoryHostname (s : String) : Bool :=
  match s.toList with
  | 'B' :: 'C' :: 'M' :: rest =>
      match rest.dropWhile Char.isDigit with
      | '-' :: hex =>
          rest.head?.any Char.isDigit && hex ≠ []
            && hex.all fun c => c.isDigit || ('a' ≤ c && c ≤ 'f') || ('A' ≤ c && c ≤ 'F')
      | _ => false
  | _ => false

def detectAlreadyConfigured (authEnable : Bool) (currentHostname : String) : Prog Bool :=
  if authEnable then pure true
  else do
    let wizards ← attempt (getSections "network" "wizard")
    if wizards.toOption.any (· ≠ []) then pure true
    else do
      let interfaces ← attempt (getSections "network" "interface")
      if interfaces.toOption.any (·.contains "ahwlan") then pure true
      else pure (currentHostname ≠ "" && !isFactoryHostname currentHostname)

/-- What the wizard's first screens are drawn from. -/
structure SetupStatus where
  isEnabled : Bool
  isSetupComplete : Bool
  currentHostname : String
  currentTimezone : String
  radios : List SetupRadio
  ethernetPorts : List String
  hasHalowRadio : Bool
  alreadyConfigured : Bool

def Service.getSetupStatus (S : Service) : App SetupStatus := fun d =>
  onTree (do
    let system ← attempt firstSystemSection
    let t ← tree
    let systemValue := fun option =>
      match system with
      | .ok sectionName => firstValue t "system" sectionName option
      | .error _ => ""
    let radios ← S.collectSetupRadios
    let alreadyConfigured ← detectAlreadyConfigured d.authEnable (systemValue "hostname")
    pure
      { isEnabled := d.setupEnabled
        isSetupComplete := d.setupComplete || legacyLuciWizardUsed t
        currentHostname := systemValue "hostname"
        currentTimezone := systemValue "zonename"
        radios := radios
        ethernetPorts := S.collectEthernetPorts
        hasHalowRadio := radios.any (·.isHalow)
        alreadyConfigured := alreadyConfigured }) d

/-- Some radio is a HaLow radio; a listing that fails counts as none. -/
def hasUsableHalowRadio : Prog Bool := do
  match ← attempt (getSections "wireless" "wifi-device") with
  | .ok devices => do
      let t ← tree
      pure (devices.any (isMorseDevice t))
  | .error _ => pure false

/-- The wizard runs where it is enabled, was not run before, and finds a
HaLow radio. -/
def checkReapplyGuard : EStateM Fault Device Unit := fun d =>
  if !d.setupEnabled then
    .error ⟨.unavailable, none, "setup wizard is disabled on this device"⟩ d
  else if d.setupComplete then
    .error ⟨.failedPrecondition, none, "setup wizard already completed on this device"⟩ d
  else if legacyLuciWizardUsed d.host.tree then
    .error ⟨.failedPrecondition, none,
      "legacy LuCI Morse wizard already configured this device (luci.wizard.used=1)"⟩ d
  else
    (do
      if ← caught (fun _ => pure false) (onTree hasUsableHalowRadio) then pure ()
      else throw ⟨.failedPrecondition, none, "no usable HaLow radio detected on this device"⟩ :
      EStateM Fault Device Unit) d

/-! ## Phases on the stream -/

namespace World

variable (W : World)

def send (e : Event) : App Unit := fun d =>
  if W.delivers e.phase e.status then .ok () { d with sent := d.sent ++ [e] }
  else .error ⟨"stream closed", false⟩ d

def emit (phase : Phase) (status : Status) (message : String) : App Unit :=
  W.send ⟨phase, status, message, none⟩

/-- A phase: word that it starts, its body, and word of how it ended. Word
that is not taken fails the phase, but for the word that it failed. -/
def runPhase (phase : Phase) (startedMsg : String) (body : App Unit) : App Unit := do
  W.emit phase .started startedMsg
  caught (fun e => do ignored (W.emit phase .failed e.text); throw e) body
  W.emit phase .done ""

end World

variable (S : Service) (W : World)

def Service.runValidate (p : MeshNodeProfile) : App Unit := do
  W.emit .validate .started "validating profile"
  caught (fun e => do ignored (W.emit .validate .failed e.text); throw e) (onTree (S.validate p))
  W.emit .validate .done "profile valid"

/-- The files of the wizard's configs. A file that is there may fail to be
read; one that is not is recorded as such. -/
def World.capture (disk : String → Option Config) : Except Err Snapshot :=
  wizardConfigs.mapM fun name =>
    if (disk name).isSome && !W.readsFile name then
      .error ⟨"reading /etc/config/" ++ name ++ ": input/output error", false⟩
    else .ok (name, disk name)

def Service.runSnapshot : App (Option Snapshot) := do
  W.emit .snapshot .started "capturing UCI snapshot for rollback"
  if !S.snapshotter then do
    W.emit .snapshot .done "snapshotter not configured; rollback disabled"
    pure none
  else
    match W.capture (← onTree tree).disk with
    | .error e => do
        ignored (W.emit .snapshot .failed e.text)
        throw { e with text := "snapshot UCI: " ++ e.text }
    | .ok snapshot => do
        W.emit .snapshot .done ("captured " ++ Nat.repr snapshot.length ++ " configs")
        pure (some snapshot)

/-- One file put back, or removed where there was none, and read again. A
file that is not there cannot be read, and leaves memory as it is. -/
def World.restoreFile (t : Tree) (entry : String × Option Config) : Tree :=
  if W.writesFile entry.1 then
    let t := { t with disk := Function.update t.disk entry.1 entry.2 }
    match entry.2 with
    | some c => t.load entry.1 c
    | none => t
  else t

def World.restore (snapshot : Snapshot) (t : Tree) : Tree := snapshot.foldl W.restoreFile t

/-- The failed run is undone, where there is a snapshot to undo it from. -/
def World.rollback (snapshot : Option Snapshot) (d : Device) : Device :=
  match snapshot with
  | some snapshot => { d with host := { d.host with tree := W.restore snapshot d.host.tree } }
  | none => d

def expectedSSID (p : MeshNodeProfile) : String :=
  match p.aps.find? fun ap => ap.enabled && ap.ssid ≠ "" with
  | some ap => ap.ssid
  | none => ""

def expectedURL (p : MeshNodeProfile) : String :=
  if p.hostname = "" then "" else "https://" ++ p.hostname ++ ".local:8081/login"

/-- The terminal event of a failed run, and what its caller is told. -/
def World.emitTerminal {α : Type} (p : MeshNodeProfile) (phase : Phase) (cause : Err) :
    EStateM Fault Device α := do
  caught (fun _ => pure ()) (W.send ⟨.terminal, .failed, "",
    some ⟨false, some phase, expectedSSID p, expectedURL p⟩⟩)
  throw ⟨if phase = .validate then .invalidArgument else .internal, some phase, cause.text⟩

def World.emitTerminalSuccess (p : MeshNodeProfile) : App Unit :=
  W.send ⟨.terminal, .done, "", some ⟨true, none, expectedSSID p, expectedURL p⟩⟩

/-! ## The phases in order -/

/-- The phases that edit the configs, each with the message it starts with
and its body. -/
def Service.editPhases (p : MeshNodeProfile) : List (Phase × String × Prog Unit) :=
  [(.resetWireless, "resetting wireless config", resetWireless),
    (.resetNetwork, "resetting network topology", S.resetNetwork),
    (.hostname, "writing system hostname", S.writeHostname p),
    (.setTimezone, "writing system timezone", S.setTimezone p),
    (.baseNetwork, "configuring base network interfaces", S.baseNetwork p),
    (.wirelessMesh, "configuring mesh wireless", wirelessMesh p),
    (.perRadioApSta, "configuring per-radio AP/STA", perRadioAPSta p),
    (.scenarioTopology, "applying scenario topology", S.scenarioTopology p),
    (.batmanAdv, "configuring batman-adv", S.batmanAdv p),
    (.mesh11sd, "writing mesh11sd announcements", mesh11sd p)]

/-- The phases 3 to 12: the edits, then the commit. -/
def Service.mutationPhases (p : MeshNodeProfile) : List (Phase × String × Prog Unit) :=
  S.editPhases p ++ [(.commit, "committing UCI", commit)]

/-- A phase whose failure carries its name. -/
def World.runNamed (ph : Phase × String × Prog Unit) : EStateM (Phase × Err) Device Unit :=
  caught (fun e => throw (ph.1, e)) (W.runPhase ph.1 ph.2.1 (onTree ph.2.2))

def Service.runMutationPhases (p : MeshNodeProfile) : EStateM (Phase × Err) Device Unit :=
  (S.mutationPhases p).forM W.runNamed

def Service.setPassword (p : MeshNodeProfile) : App Unit :=
  if !S.passwordSetter then throw ⟨"PasswordSetter not configured", false⟩
  else fun d =>
    if W.setsPassword then .ok () { d with password := some p.adminPassword }
    else .error ⟨"chpasswd: exit status 1", false⟩ d

def Service.runPassword (p : MeshNodeProfile) : App Unit :=
  W.runPhase .password "setting admin password" (S.setPassword W p)

def reloadServices : List String :=
  ["network", "firewall", "wireless", "dhcp", "mesh11sd", "system", "umdns"]

def World.reloadOneService (svc : String) : Bool := W.reloads svc || W.restarts svc

/-- Only a device on which no service could be reloaded or restarted fails
the phase. -/
def Service.runReloadServices : App Unit :=
  if !S.reloader then
    W.runPhase .reloadServices "no reloader configured; skipping" (pure ())
  else
    W.runPhase .reloadServices "reloading network services"
      (if reloadServices.any W.reloadOneService then pure ()
      else throw ⟨"every service reload AND restart failed; init.d may be broken on this device",
        false⟩)

/-- Both flags in one write of the daemon's config file. -/
def World.persistSetupAndAuth (setupComplete authEnable : Bool) : App Unit := fun d =>
  if W.persists then
    .ok () { d with setupComplete := setupComplete, authEnable := authEnable }
  else .error ⟨"writing config file: input/output error", false⟩ d

def World.runPersistFlags : App Unit :=
  W.runPhase .persistFlags "persisting setup.complete and auth.enable"
    (W.persistSetupAndAuth true true)

/-- A failed step ends the run with its terminal event, undone first where
it can be. -/
def World.orTerminal {α : Type} (p : MeshNodeProfile) (snapshot : Option Snapshot)
    (m : EStateM (Phase × Err) Device α) : EStateM Fault Device α :=
  caught (fun f d => W.emitTerminal p f.1 f.2 (W.rollback snapshot d)) m

/-- A step whose failure carries the name of its phase. -/
def inPhase {α : Type} (phase : Phase) (m : App α) : EStateM (Phase × Err) Device α :=
  caught (fun e => throw (phase, e)) m

/-- The two phases that are not undone. -/
def Service.runTail (p : MeshNodeProfile) : EStateM Fault Device Unit := do
  W.orTerminal p none (inPhase .reloadServices (S.runReloadServices W))
  W.orTerminal p none (inPhase .persistFlags W.runPersistFlags)
  caught (fun _ => pure ()) (W.emitTerminalSuccess p)

/-- The phases from the first edit to the password, undone when one
fails. -/
def Service.runUndoable (p : MeshNodeProfile) (snapshot : Option Snapshot) :
    EStateM Fault Device Unit := do
  W.orTerminal p snapshot (S.runMutationPhases W p)
  W.orTerminal p snapshot (inPhase .password (S.runPassword W p))

/-- The run up to the password. -/
def Service.runHead (p : MeshNodeProfile) : EStateM Fault Device Unit := do
  checkReapplyGuard
  W.orTerminal p none (inPhase .validate (S.runValidate W p))
  let snapshot ← W.orTerminal p none (inPhase .snapshot (S.runSnapshot W))
  S.runUndoable W p snapshot

def Service.applySetup (profile : Option MeshNodeProfile) : EStateM Fault Device Unit := do
  match profile with
  | none => throw ⟨.invalidArgument, none, "profile is required"⟩
  | some p => do
      S.runHead W p
      S.runTail W p

/-! ## A device to try it on -/

namespace Bench

/-- A section whose options have one value each. -/
def sec (type name : String) (options : List (String × String)) : Section :=
  ⟨type, name,
    (options.map fun o => (⟨o.1, [o.2]⟩ : Sigma fun _ : String => List String)).toAList⟩

/-- A config of given sections. -/
def config (l : List Section)
    (h : (∀ s ∈ l, Plain s.name) ∧ (∀ s ∈ l, '[' ∉ s.type.toList) ∧
      l.Pairwise fun s t => s.name = t.name → s.name = "") : Config :=
  ⟨l, h.1, h.2.1, h.2.2⟩

/-- One HaLow radio and nothing on it. -/
def wireless : Config :=
  config [sec "wifi-device" "radio1" [("type", "morse")]] (by decide +kernel)

def network : Config := config [sec "interface" "lan" [("proto", "static")]] (by decide +kernel)

def firewall : Config :=
  config [sec "zone" "lan" [("name", "lan"), ("network", "lan")]] (by decide +kernel)

def system : Config := config [sec "system" "" []] (by decide +kernel)

def mesh11sd : Config :=
  config [sec "mesh11sd" "mesh_params" [], sec "mesh11sd" "setup" []] (by decide +kernel)

/-- The files of the image, with the wireless, network and luci configs
given. -/
def files (wireless network : Config) (luci : Option Config) : String → Option Config
  | "wireless" => some wireless
  | "network" => some network
  | "firewall" => some firewall
  | "system" => some system
  | "mesh11sd" => some mesh11sd
  | "dhcp" | "umdns" | "openmanetd" => some Config.empty
  | "luci" => luci
  | _ => none

/-- No call is refused. -/
def obliging : Fate := ⟨fun _ => false, fun _ _ => true⟩

/-- A device with these files, all of them loaded, that was never set up. -/
def device (files : String → Option Config) : Device where
  host := ⟨⟨files, files, fun _ => false⟩, 0, obliging⟩
  setupEnabled := true
  setupComplete := false
  authEnable := false
  password := none
  sent := []

def service : Service where
  snapshotter := true
  reloader := true
  passwordSetter := true
  hostnameSetter := true
  interfaces := ["lo", "eth0", "eth1"]
  radioHardware _ := some "MediaTek MT7915E"
  regDB := .notInstalled
  posixTZ _ := none
  multicastForceflood := true
  randomMAC := "F2:00:00:00:00:01"
  randomMeshIP := some "10.41.254.7"
  randomDhcpStart := 255

/-- A mesh point with the mesh on its one radio. -/
def profile : MeshNodeProfile where
  hostname := "node"
  adminPassword := "password"
  role := .meshPoint
  deviceMode := .meshpoint .extender
  mesh := some ⟨"radio1", "mesh", "meshpass", .sae, 2, 10, ""⟩
  uplink := none
  aps := []
  timezone := ""

/-- Nothing fails. -/
def calm : World where
  delivers _ _ := true
  reloads _ := true
  restarts _ := true
  setsPassword := true
  readsFile _ := true
  writesFile _ := true
  persists := true

end Bench

end Setup

end OpenManet
