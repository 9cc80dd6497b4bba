import OpenManet.Setup.Runs
/-!
# Undoing a failed run

A phase from the first edit to the password that fails is undone from the
snapshot: every file of the wizard's configs is put back, and read again into
memory. A config that had no file cannot be read again, so an edit that
brought it into being in memory stays there. The resets need their configs
to be there, which leaves three that a run can bring into being: `umdns`,
`openmanetd` and `luci`.
-/

namespace OpenManet

namespace Setup

open Uci Fallible Network

variable {S : Service} {W : World} {p : MeshNodeProfile} {α β : Type}

/-! ## What the resets need -/

theorem needs_resetWireless : Needs "wireless" resetWireless := by
  refine needs_bind_left wizardConfigs [] (needs_saying needs_getSections)
    fun devices => ?_
  have hc : "wireless" ∈ wizardConfigs := by decide
  exact within_bind (within_forM fun _ => within_whitelistDeviceFields hc) fun _ =>
    within_bind (within_removeNonMeshIfacesOnMorseDevices hc) fun _ =>
      within_bind (within_saying within_getSections) fun _ =>
        within_bind (within_forM fun _ => within_whitelistInterfaceFields hc) fun _ =>
          within_disableAllInterfaces hc

theorem needs_resetFirewall : Needs "firewall" resetFirewall := by
  have hf : "firewall" ∈ wizardConfigs := by decide
  have hrules : Needs "firewall" removeAllRules :=
    needs_bind_left wizardConfigs [] (needs_saying needs_getSections)
      fun _ => within_forM fun _ => within_saying (within_delSection hf)
  exact needs_bind_left wizardConfigs [] hrules fun _ =>
    within_bind (within_whitelistAndDisableForwardings hf) fun _ => within_unsetMtuFixAndMasq hf

theorem needs_resetDhcp : Needs "dhcp" resetDhcp := by
  have hd : "dhcp" ∈ wizardConfigs := by decide
  have hpools : Needs "dhcp" whitelistAndIgnoreAllPools :=
    needs_bind_left wizardConfigs [] (needs_saying needs_getSections)
      fun _ => within_forM fun _ =>
        within_bind (within_whitelistFields hd) fun _ => within_saying (within_setType hd)
  exact needs_bind_left wizardConfigs [] hpools fun _ =>
    within_whitelistDnsmasqSurvivors hd

theorem needs_resetInterfaces : Needs "network" S.resetInterfaces := by
  have hn : "network" ∈ wizardConfigs := by decide
  have hlast : Needs "network" unsetGatewayAndDeviceOnInterfaces := by
    refine needs_bind_left wizardConfigs [] (needs_saying needs_getSections)
      fun _ => within_forM fun _ => ?_
    grind
  exact needs_bind_right fun _ => needs_bind_right fun _ => needs_bind_right fun _ => hlast

/-- The network reset lists sections of each of its three configs. -/
theorem needs_resetNetwork {config : String} (hconfig : config ∈ ["firewall", "dhcp", "network"]) :
    Needs config S.resetNetwork := by
  have hd : "dhcp" ∈ wizardConfigs := by decide
  have hn : "network" ∈ wizardConfigs := by decide
  simp only [List.mem_cons, List.not_mem_nil, or_false] at hconfig
  rcases hconfig with rfl | rfl | rfl
  · exact needs_bind_left wizardConfigs [] needs_resetFirewall fun _ =>
      within_bind (within_resetDhcp hd) fun _ => within_resetInterfaces hn
  · exact needs_bind_right fun _ =>
      needs_bind_left wizardConfigs [] needs_resetDhcp fun _ =>
        within_resetInterfaces hn
  · exact needs_bind_right fun _ => needs_bind_right fun _ => needs_resetInterfaces

/-! ## Configs that stay away -/

/-- The bound of programs that do not bring a config into being. -/
def KeepsAway (config : String) : Bound Host where
  rel h h' := h.tree.mem config = none → h'.tree.mem config = none
  refl _ h := h
  trans h h' := fun hn => h' (h hn)

theorem keepsAway_of_touches {config : String} {cs born : List String} {m : Prog α}
    (hm : Within (Touches cs born) m) (hb : config ∉ born) : Within (KeepsAway config) m :=
  fun h => (hm h).2.2 config hb

/-- What follows a phase that fails where a config is not there is never
reached. -/
theorem keepsAway_bind {config : String} {ph : Phase × String × Prog Unit}
    {f : Unit → EStateM (Phase × Err) Device α} (hneed : Needs config ph.2.2)
    (hm : Within (Edits wizardConfigs []) ph.2.2) :
    Within (OnHost (KeepsAway config)) (W.runNamed ph >>= f) := by
  intro d hnone
  have hkeep : Within (OnHost (KeepsAway config)) (W.runNamed ph) :=
    onHost_runNamed (keepsAway_of_touches (Edits.touches hm) (List.not_mem_nil))
  cases hrun : W.runNamed ph d with
  | error e t =>
      rw [final_of_error (bind_of_error hrun)]
      exact hkeep.error hrun hnone
  | ok _ t =>
      have hbody := runNamed_eq_ok hrun
      have hfails := fails_of_needs hneed hm (List.not_mem_nil) hnone
      rw [Fallible.succeeds, hbody] at hfails
      cases hfails

/-- **The configs the resets list are never brought into being.** -/
theorem keepsAway_runMutationPhases {config : String} (hconfig : config ∉ ["umdns", "openmanetd",
    "luci"]) : Within (OnHost (KeepsAway config)) (S.runMutationPhases W p) := by
  by_cases hborn : config ∈ bornConfigs
  · have hf : "firewall" ∈ wizardConfigs := by decide
    have hd : "dhcp" ∈ wizardConfigs := by decide
    have hn : "network" ∈ wizardConfigs := by decide
    have hw : "wireless" ∈ wizardConfigs := by decide
    by_cases hwireless : config = "wireless"
    · subst hwireless
      exact keepsAway_bind needs_resetWireless (within_resetWireless hw)
    · have hneed : config ∈ ["firewall", "dhcp", "network"] := by
        simp [bornConfigs] at hborn hconfig ⊢
        tauto
      have hreset : Within (Edits wizardConfigs []) resetWireless := within_resetWireless hw
      refine within_bind (onHost_runNamed (keepsAway_of_touches (Edits.touches hreset)
        (List.not_mem_nil))) fun _ => ?_
      exact keepsAway_bind (needs_resetNetwork hneed) (within_resetNetwork hf hd hn)
  · exact within_forM_of_mem fun ph hph =>
      onHost_runNamed (keepsAway_of_touches (within_mutationPhases hph) hborn)

/-! ## Configs that are there at the end -/

theorem needs_stageUmdnsNetworks {networks : List String} :
    Needs "umdns" (stageUmdnsNetworks networks) := by
  intro h
  unfold stageUmdnsNetworks
  rw [leaves_ite]
  refine ⟨fun _ => leaves_fail.2 trivial, fun _ => leaves_after fun found h => ?_⟩
  have hwrite : ∀ s, Needs "umdns"
      (saying "setting umdns network list" (setType "umdns" s "network" networks)) :=
    fun _ => needs_saying needs_setType
  match found with
  | .error e =>
      dsimp only
      rw [leaves_ite]
      exact ⟨fun _ => needs_bind_right (fun _ => hwrite _) h, fun _ => (leaves_throw _).2 trivial⟩
  | .ok (s :: _) => exact hwrite s h
  | .ok [] => exact needs_bind_right (fun _ => hwrite _) h

theorem needs_baseNetwork : Needs "umdns" (S.baseNetwork p) := by
  have hn : "network" ∈ wizardConfigs := by decide
  have hn' : "network" ∈ bornConfigs := by decide
  refine needs_bind_right fun _ => needs_bind_right fun _ => needs_bind_right fun _ =>
    needs_bind_left wizardConfigs bornConfigs (needs_saying needs_stageUmdnsNetworks) fun _ => ?_
  exact within_bind (within_saying (within_createBridgeDevice hn hn')) fun _ =>
    within_bind (within_stageTransportMTU hn hn') fun _ =>
      within_bind (within_saying (within_setType hn)) fun _ =>
        within_applyScenarioUplinkBinding hn hn'

/-- LuCI's mark is on. -/
def Marked (t : Tree) : Prop := t.get "luci" "wizard" "used" = ["1"]

theorem marked_update {t : Tree} {c : Config} (h : (c.find "wizard").isSome = true) :
    Marked (t.stage "luci" (c.update "wizard" fun o => o.insert "used" ["1"])) := by
  simp only [Marked, Uci.Tree.get, Uci.Tree.stage, Function.update_self]
  exact Config.get_update_insert h

theorem marked_del {t : Tree} {c : Config} (hmem : t.mem "luci" = some c) (h : Marked t) :
    Marked (t.stage "luci" (c.update "main" fun o => o.erase "homepage")) := by
  have hkeep : ∀ o : Table (List String), (o.erase "homepage").lookup "used" = o.lookup "used" :=
    fun o => AList.lookup_erase_ne (by decide)
  simp only [Marked, Uci.Tree.get, hmem] at h
  simp only [Marked, Uci.Tree.get, Uci.Tree.stage, Function.update_self]
  rw [Config.get_update_of_lookup hkeep, h]

theorem marked_writeLuciBookkeeping {h : Host} :
    Leaves writeLuciBookkeeping h fun _ h' => Marked h'.tree := by
  refine leaves_after fun _ h => leaves_then (P := fun h : Host => Marked h.tree) ?_ fun _ h hmark => ?_
  · rw [leaves_saying]
    exact leaves_editSection fun c tick _ hfind => marked_update hfind
  · rw [leaves_bind, leaves_tree]
    split
    · rw [leaves_ite]
      refine ⟨fun _ => ?_, fun _ => (leaves_pure _).2 hmark⟩
      rw [leaves_saying]
      exact leaves_editSection fun c tick hmem _ => marked_del hmem hmark
    · exact (leaves_pure _).2 hmark

theorem needs_writeWizardBookkeeping : Needs "openmanetd" (writeWizardBookkeeping p) := by
  have ho : "openmanetd" ∈ wizardConfigs := by decide
  have hl : "luci" ∈ wizardConfigs := by decide
  have hl' : "luci" ∈ bornConfigs := by decide
  have hflags : Needs "openmanetd" (writeOpenmanetdFlags p) :=
    needs_bind_right fun _ => needs_bind_left wizardConfigs bornConfigs
      (needs_saying needs_setType) fun _ => within_forM fun _ => within_saying (within_setType ho)
  refine needs_bind_right fun _ => needs_bind_right fun _ =>
    needs_bind_left wizardConfigs bornConfigs hflags fun _ => ?_
  exact within_writeLuciBookkeeping hl hl'

/-- Every scenario ends with the bookkeeping. -/
theorem leaves_scenarioTopology {Q : Unit → Host → Prop}
    (hbook : ∀ h, Leaves (writeWizardBookkeeping p) h Q) (h : Host) :
    Leaves (S.scenarioTopology p) h Q := by
  have hgate : ∀ zone h, Leaves (S.scenarioMeshGateRouter p zone) h Q := fun _ _ =>
    leaves_after fun _ _ => leaves_after fun _ _ => leaves_after fun _ _ => leaves_after fun _ _ =>
      leaves_after fun _ _ => leaves_after fun _ _ => leaves_after fun _ _ =>
        leaves_after fun _ _ => hbook _
  refine leaves_after fun scenario h => ?_
  cases scenario with
  | meshGateRouterEth => exact hgate _ h
  | meshGateRouterFirewallEth => exact hgate _ h
  | meshGateRouterWifiSta => exact hgate _ h
  | meshPointExtender =>
      exact leaves_after fun _ _ => leaves_after fun _ _ => leaves_after fun _ _ =>
        leaves_after fun _ _ => leaves_after fun _ _ => hbook _
  | meshPointNone =>
      exact leaves_after fun _ _ => leaves_after fun _ _ => leaves_after fun _ _ =>
        leaves_after fun _ _ => leaves_after fun _ _ => leaves_after fun _ _ => hbook _

/-- **A run that gets to its end has marked LuCI's wizard as used.** -/
theorem marked_of_bodies {h h' : Host} (hrun : bodies (S.mutationPhases p) h = .ok () h') :
    Marked h'.tree := by
  have hbook : ∀ h, Leaves (S.scenarioTopology p) h fun _ h' => Marked h'.tree :=
    leaves_scenarioTopology fun _ => leaves_after fun _ _ => leaves_after fun _ _ =>
      leaves_after fun _ _ => marked_writeLuciBookkeeping
  have hkeep : ∀ {cs born : List String} {m : Prog Unit}, Within (Edits cs born) m →
      "luci" ∉ cs → ∀ h, Marked h.tree → Leaves m h fun _ h' => Marked h'.tree := by
    intro cs born m hm hluci h hmark _ h' hok
    have hmem := mem_of_edits hm hluci hok
    unfold Marked Uci.Tree.get at *
    rwa [hmem]
  have hcommit : ∀ h, Marked h.tree → Leaves commit h fun _ h' => Marked h'.tree := by
    intro h hmark _ h' hok
    unfold commit at hok
    dsimp only at hok
    split at hok
    · cases hok
    · obtain ⟨-, rfl⟩ := EStateM.Result.ok.inj hok
      exact hmark
  have hall : Leaves (bodies (S.mutationPhases p)) h fun _ h' => Marked h'.tree := by
    refine leaves_after fun _ _ => leaves_after fun _ _ => leaves_after fun _ _ =>
      leaves_after fun _ _ => leaves_after fun _ _ => leaves_after fun _ _ =>
        leaves_after fun _ h => leaves_then (P := fun h : Host => Marked h.tree) (hbook h)
          fun _ h hmark => ?_
    refine leaves_then (P := fun h : Host => Marked h.tree) (hkeep edits_batmanAdv (by decide) h hmark)
      fun _ h hmark => ?_
    refine leaves_then (P := fun h : Host => Marked h.tree) (hkeep edits_mesh11sd (by decide) h hmark)
      fun _ h hmark => ?_
    exact leaves_then (P := fun h : Host => Marked h.tree) (hcommit h hmark) fun _ _ hmark =>
      (leaves_pure _).2 hmark
  exact hall _ _ hrun

/-- Whatever comes after a phase that needs a config keeps it. -/
theorem needs_bodies {config : String} {l l' : List (Phase × String × Prog Unit)}
    {ph : Phase × String × Prog Unit} (hneed : Needs config ph.2.2)
    (hkeep : ∀ ph ∈ l', Within (Touches wizardConfigs bornConfigs) ph.2.2) :
    Needs config (bodies (l ++ ph :: l')) := by
  induction l with
  | cons _ l ih => exact needs_bind_right fun _ => ih
  | nil =>
      intro h
      show Leaves (ph.2.2 >>= fun _ => bodies l') h _
      rw [leaves_bind]
      refine (hneed h).mono fun _ h' hpresent _ h'' hrun => ?_
      have hrest : Within (Touches wizardConfigs bornConfigs) (bodies l') :=
        within_forM_of_mem hkeep
      exact (hrest.ok hrun).2.1 config hpresent

/-- **A run that gets to its end has brought these three into being.** -/
theorem present_of_bodies {config : String} (hconfig : config ∈ ["umdns", "openmanetd", "luci"])
    {h h' : Host} (hrun : bodies (S.mutationPhases p) h = .ok () h') :
    h'.tree.mem config ≠ none := by
  have hall : ∀ ph ∈ S.mutationPhases p, Within (Touches wizardConfigs bornConfigs) ph.2.2 :=
    fun _ => within_mutationPhases
  simp only [List.mem_cons, List.not_mem_nil, or_false] at hconfig
  rcases hconfig with rfl | rfl | rfl
  · have hsplit : S.mutationPhases p = (S.mutationPhases p).take 4 ++
        (.baseNetwork, "configuring base network interfaces", S.baseNetwork p) ::
          (S.mutationPhases p).drop 5 := rfl
    rw [hsplit] at hrun
    exact needs_bodies needs_baseNetwork (fun ph hph => hall ph (List.mem_of_mem_drop hph)) _ _ _
      hrun
  · have hsplit : S.mutationPhases p = (S.mutationPhases p).take 7 ++
        (.scenarioTopology, "applying scenario topology", S.scenarioTopology p) ::
          (S.mutationPhases p).drop 8 := rfl
    rw [hsplit] at hrun
    have hneed : Needs "openmanetd" (S.scenarioTopology p) :=
      leaves_scenarioTopology needs_writeWizardBookkeeping
    exact needs_bodies hneed (fun ph hph => hall ph (List.mem_of_mem_drop hph)) _ _ _ hrun
  · intro hnone
    have hmark := marked_of_bodies hrun
    simp [Marked, Uci.Tree.get, hnone] at hmark

/-! ## Putting the files back -/

/-- **What a restore leaves behind.** Every file that can be written is as
it was, and memory is what the file holds, where there is one. -/
theorem restore_spec (W : World) (disk : String → Option Config) (l : List String) (t : Tree)
    (c : String) :
    (W.restore (l.map fun c => (c, disk c)) t).disk c =
        (if c ∈ l ∧ W.writesFile c = true then disk c else t.disk c) ∧
      (W.restore (l.map fun c => (c, disk c)) t).mem c =
        if c ∈ l ∧ W.writesFile c = true then (disk c).or (t.mem c) else t.mem c := by
  induction l generalizing t with
  | nil => simp [World.restore]
  | cons a l ih =>
      obtain ⟨hdisk, hmem⟩ := ih (W.restoreFile t (a, disk a))
      have hfile : ∀ c, (W.restoreFile t (a, disk a)).disk c =
          if c = a ∧ W.writesFile a = true then disk a else t.disk c := by
        intro c
        unfold World.restoreFile
        cases W.writesFile a with
        | false => simp
        | true => cases disk a <;> simp [Tree.load, Function.update_apply]
      have hread : ∀ c, (W.restoreFile t (a, disk a)).mem c =
          if c = a ∧ W.writesFile a = true then (disk a).or (t.mem a) else t.mem c := by
        intro c
        unfold World.restoreFile
        cases W.writesFile a with
        | false => simp
        | true =>
            cases disk a with
            | none =>
                simp only [if_true, Option.none_or, and_true]
                split
                · next h => rw [h]
                · rfl
            | some x => simp [Tree.load, Function.update_apply]
      have hrun : W.restore ((a :: l).map fun c => (c, disk c)) t =
          W.restore (l.map fun c => (c, disk c)) (W.restoreFile t (a, disk a)) := rfl
      rw [hrun, hdisk, hmem, hfile, hread]
      rcases eq_or_ne c a with rfl | hne
      · cases W.writesFile c <;> cases disk c <;> simp
      · simp [hne]

/-! ## Runs that are undone -/

/-- The device under another pattern of refusals. -/
def Device.under (d : Device) (fate : Fate) : Device :=
  { d with host := { d.host with fate := fate } }

/-- Whatever fails from the first edit to the password, the files and the
memory are as they were. The files of the snapshot can be put back. -/
def Undone (S : Service) (p : MeshNodeProfile) (d : Device) : Prop :=
  ∀ (W : World) (fate : Fate) (f : Fault) (d' : Device) (ph : Phase),
    (∀ c, W.writesFile c = true) → S.applySetup W (some p) (d.under fate) = .error f d' →
    f.phase = some ph → ph.undoable = true →
    d'.host.tree.disk = d.host.tree.disk ∧ d'.host.tree.mem = d.host.tree.mem

/-- There is a snapshotter, and the configs that the edits can bring into
being have files already. -/
def Restorable (S : Service) (d : Device) : Prop :=
  S.snapshotter = true ∧ ∀ c ∈ ["umdns", "openmanetd", "luci"], d.host.tree.disk c ≠ none

/-- The profile can be applied: some world lets its run come to the reload. -/
def Viable (S : Service) (p : MeshNodeProfile) (d : Device) : Prop :=
  ∃ (W : World) (fate : Fate) (d' : Device),
    (∀ c, W.writesFile c = true) ∧ S.runHead W p (d.under fate) = .ok () d'

theorem applySetup_eq_error {d d' : Device} {f : Fault}
    (h : S.applySetup W (some p) d = .error f d') :
    S.runHead W p d = .error f d' ∨
      ∃ t, S.runHead W p d = .ok () t ∧ S.runTail W p t = .error f d' := by
  rcases bind_eq_error.1 h with h | ⟨_, t, hhead, htail⟩
  · exact .inl h
  · exact .inr ⟨t, hhead, htail⟩

theorem touches_runMutationPhases :
    Within (OnHost (Touches wizardConfigs bornConfigs)) (S.runMutationPhases W p) :=
  within_forM_of_mem fun _ hph => onHost_runNamed (within_mutationPhases hph)

/-- A run that was undone from a snapshot leaves the tree as it was, where
the configs it can create were there. -/
theorem rollback_tree {d e t : Device} (hwrites : ∀ c, W.writesFile c = true)
    (hsync : d.host.tree.InSync) (hres : Restorable S d) (htree : e.host.tree = d.host.tree)
    (hrun : t.host = (final (S.runMutationPhases W p) e).host) :
    (W.rollback (snapshotOf S d.host.tree) t).host.tree.disk = d.host.tree.disk ∧
      (W.rollback (snapshotOf S d.host.tree) t).host.tree.mem = d.host.tree.mem := by
  have hundo : (W.rollback (snapshotOf S d.host.tree) t).host.tree =
      W.restore (wizardConfigs.map fun c => (c, d.host.tree.disk c)) t.host.tree := by
    rw [snapshotOf, if_pos hres.1]
    rfl
  have hside : ∀ c, c ∉ wizardConfigs →
      t.host.tree.mem c = d.host.tree.mem c ∧ t.host.tree.disk c = d.host.tree.disk c := by
    intro c hc
    have htouch := (touches_runMutationPhases (S := S) (W := W) (p := p) e).1 c hc
    rw [← hrun, htree] at htouch
    exact (htouch (hsync.2 c)).2
  have hspec := restore_spec W d.host.tree.disk wizardConfigs t.host.tree
  simp only [hwrites, and_true] at hspec
  rw [hundo]
  constructor
  · funext c
    rw [(hspec c).1]
    split
    · rfl
    · next hc => exact (hside c hc).2
  · funext c
    rw [(hspec c).2]
    split
    · cases hfile : d.host.tree.disk c with
      | some x =>
          rw [hsync.1, hfile]
          rfl
      | none =>
          -- a config without a file is one that no edit brings into being
          have hnone : d.host.tree.mem c = none := by rw [hsync.1, hfile]
          have haway := keepsAway_runMutationPhases (S := S) (W := W) (p := p)
            (fun hc => hres.2 c hc hfile) e
          rw [Option.none_or, hnone, hrun]
          exact haway (by rw [htree, hnone])
    · next hc => exact (hside c hc).1

/-- A snapshot of files that are all there undoes every failure. -/
theorem undone_of_restorable {d : Device} (hsync : d.host.tree.InSync) (hres : Restorable S d) :
    Undone S p d := by
  intro W fate f d' ph hwrites hrun hphase hundoable
  rcases applySetup_eq_error hrun with hhead | ⟨t, -, htail⟩
  · rcases runHead_eq_error hhead with ⟨-, hearly⟩ | ⟨e, t, htree, hmut, hhost⟩
    · rw [hearly ph hphase] at hundoable
      cases hundoable
    · rw [hhost]
      exact rollback_tree hwrites hsync hres htree hmut
  · rw [phase_of_runTail htail ph hphase] at hundoable
    cases hundoable

/-! ## Another world up to the password -/

section Alike

variable {W' : World}

theorem emit_congr {ph : Phase} (h : W'.delivers ph = W.delivers ph) (st : Status) (msg : String) :
    W'.emit ph st msg = W.emit ph st msg := by
  funext d
  simp [World.emit, World.send, h]

theorem runPhase_congr {ph : Phase} (h : W'.delivers ph = W.delivers ph) (msg : String)
    (body : App Unit) : W'.runPhase ph msg body = W.runPhase ph msg body := by
  unfold World.runPhase
  simp only [emit_congr h]

theorem runMutationPhases_congr
    (h : ∀ ph ∈ S.mutationPhases p, W'.delivers ph.1 = W.delivers ph.1) :
    S.runMutationPhases W' p = S.runMutationPhases W p := by
  unfold Service.runMutationPhases
  generalize S.mutationPhases p = l at h
  induction l with
  | nil => rfl
  | cons ph l ih =>
      have hph : W'.runNamed ph = W.runNamed ph := by
        unfold World.runNamed
        rw [runPhase_congr (h ph (List.mem_cons_self ..))]
      show (W'.runNamed ph >>= fun _ => l.forM W'.runNamed)
        = (W.runNamed ph >>= fun _ => l.forM W.runNamed)
      rw [hph, ih fun ph hph => h ph (List.mem_cons_of_mem _ hph)]

theorem runValidate_congr (h : W'.delivers .validate = W.delivers .validate) :
    S.runValidate W' p = S.runValidate W p := by
  unfold Service.runValidate
  simp only [emit_congr h]

theorem runSnapshot_congr (h : W'.delivers .snapshot = W.delivers .snapshot)
    (hread : W'.readsFile = W.readsFile) : S.runSnapshot W' = S.runSnapshot W := by
  have hcapture : W'.capture = W.capture := by
    funext disk
    unfold World.capture
    rw [hread]
  unfold Service.runSnapshot
  simp only [emit_congr h, hcapture]

/-- The phases before the password. -/
def Phase.early (ph : Phase) : Prop :=
  ph ∈ [.validate, .snapshot, .resetWireless, .resetNetwork, .hostname, .setTimezone, .baseNetwork,
    .wirelessMesh, .perRadioApSta, .scenarioTopology, .batmanAdv, .mesh11sd, .commit]

theorem early_of_mutationPhases {ph : Phase × String × Prog Unit} (hph : ph ∈ S.mutationPhases p) :
    ph.1.early := by
  have hnames : (S.mutationPhases p).map (·.1) = [.resetWireless, .resetNetwork, .hostname,
    .setTimezone, .baseNetwork, .wirelessMesh, .perRadioApSta, .scenarioTopology, .batmanAdv,
    .mesh11sd, .commit] := rfl
  have hmem : ph.1 ∈ (S.mutationPhases p).map (·.1) := List.mem_map_of_mem hph
  rw [hnames] at hmem
  exact List.mem_cons_of_mem _ (List.mem_cons_of_mem _ hmem)

/-- **A run that came to the reload comes to the password** in every world
that treats the earlier phases alike. -/
theorem runHead_of_alike {d d' : Device} (hd : ∀ ph, ph.early → W'.delivers ph = W.delivers ph)
    (hread : W'.readsFile = W.readsFile) (h : S.runHead W p d = .ok () d') :
    ∃ t, t.host = d'.host ∧ S.runPassword W p t = .ok () d' ∧
      S.runHead W' p d =
        W'.orTerminal p (snapshotOf S d.host.tree) (inPhase .password (S.runPassword W' p)) t := by
  obtain ⟨_, d₁, hguard, h⟩ := bind_eq_ok.1 h
  obtain ⟨_, d₂, h₂, h⟩ := bind_eq_ok.1 h
  obtain ⟨snapshot, d₃, h₃, h⟩ := bind_eq_ok.1 h
  obtain ⟨_, d₄, h₄, h₅⟩ := bind_eq_ok.1 h
  have hvalid := inPhase_eq_ok (orTerminal_eq_ok h₂)
  have hsnap := inPhase_eq_ok (orTerminal_eq_ok h₃)
  have hmut := orTerminal_eq_ok h₄
  have hpass := inPhase_eq_ok (orTerminal_eq_ok h₅)
  have htree : d₂.host.tree = d.host.tree :=
    Eq.trans (reads_runValidate.ok hvalid) (reads_checkReapplyGuard.ok hguard)
  have hfiles : snapshot = snapshotOf S d.host.tree := by rw [← htree, runSnapshot_eq_ok hsnap]
  have hhost := runPassword_host (S := S) (W := W) (p := p) (d := d₄)
  rw [final_of_ok hpass] at hhost
  rw [← runValidate_congr (hd .validate (by simp [Phase.early]))] at hvalid
  rw [← runSnapshot_congr (hd .snapshot (by simp [Phase.early])) hread] at hsnap
  rw [← runMutationPhases_congr fun ph hph => hd ph.1 (early_of_mutationPhases hph)] at hmut
  refine ⟨d₄, hhost.symm, hpass, ?_⟩
  rw [← hfiles]
  refine (bind_of_ok hguard).trans ((bind_of_ok (orTerminal_of_ok (caught_of_ok hvalid))).trans ?_)
  exact (bind_of_ok (orTerminal_of_ok (caught_of_ok hsnap))).trans
    (bind_of_ok (orTerminal_of_ok hmut))

end Alike

/-- The world in which the client is gone when the password phase starts. -/
def World.mute (W : World) : World :=
  { W with delivers := fun ph st => !(ph = .password && st = .started) && W.delivers ph st }

theorem mute_early (ph : Phase) (h : ph.early) : W.mute.delivers ph = W.delivers ph := by
  have hne : ph ≠ .password := by
    rintro rfl
    simp [Phase.early] at h
  funext st
  simp [World.mute, hne]

/-- A client that is gone when the password phase starts has the run undone
right after the commit. -/
theorem applySetup_mute {d d' : Device} (h : S.runHead W p d = .ok () d') :
    ∃ f t u, S.applySetup W.mute (some p) d = .error f u ∧ f.phase = some .password ∧
      t.host = d'.host ∧ u.host = (W.mute.rollback (snapshotOf S d.host.tree) t).host := by
  obtain ⟨t, hhost, -, hrun⟩ := runHead_of_alike mute_early rfl h
  have hlost : inPhase .password (S.runPassword W.mute p) t
      = .error (.password, ⟨"stream closed", false⟩) t :=
    caught_of_error (runPhase_lost (by simp [World.mute]))
  obtain ⟨f, u, herr, hphase, hquiet⟩ :=
    orTerminal_of_error (W := W.mute) (p := p) (snapshotOf S d.host.tree) hlost
  exact ⟨f, t, u, bind_of_error (hrun.trans herr), hphase, hhost, host_of_quiet hquiet⟩

theorem used_of_guard {d d' : Device} (h : checkReapplyGuard d = .ok () d') :
    legacyLuciWizardUsed d.host.tree = false := by
  unfold checkReapplyGuard at h
  split_ifs at h with henabled hcomplete hused
  simpa using hused

theorem used_of_marked {t : Tree} (h : Marked t) : legacyLuciWizardUsed t = true := by
  unfold Marked at h
  unfold legacyLuciWizardUsed
  rw [h]
  decide +kernel

/-- Where the profile can be applied at all, some failure after the commit
brings out a missing snapshotter and each of the three missing files. -/
theorem restorable_of_undone {d : Device} (hsync : d.host.tree.InSync) (hviable : Viable S p d)
    (hundone : Undone S p d) : Restorable S d := by
  obtain ⟨W, fate, d', hwrites, hhead⟩ := hviable
  obtain ⟨-, g, -, hbodies⟩ := runHead_eq_ok hhead
  obtain ⟨_, _, hguard, -⟩ := bind_eq_ok.1 hhead
  have hused := used_of_guard hguard
  rw [show (d.under fate).host.tree = d.host.tree from rfl] at hused
  obtain ⟨f, t, u, herr, hphase, hhost, hundo⟩ := applySetup_mute hhead
  have hmem : u.host.tree.mem = d.host.tree.mem :=
    (hundone W.mute fate f u .password hwrites herr hphase rfl).2
  have htree : (d.under fate).host.tree = d.host.tree := rfl
  have hsnap : S.snapshotter = true := by
    by_contra hno
    rw [snapshotOf, if_neg hno] at hundo
    have hsame : u.host = d'.host := hundo.trans hhost
    have hmark := marked_of_bodies hbodies
    rw [← hsame] at hmark
    unfold Marked Uci.Tree.get at hmark
    rw [hmem] at hmark
    rw [used_of_marked hmark] at hused
    cases hused
  refine ⟨hsnap, fun c hc hnone => ?_⟩
  rw [snapshotOf, if_pos hsnap, htree] at hundo
  have hspec := (restore_spec W.mute d.host.tree.disk wizardConfigs t.host.tree c).2
  have hkept : u.host.tree.mem c = t.host.tree.mem c := by
    rw [hundo]
    refine hspec.trans ?_
    rw [hnone, Option.none_or, ite_self]
  rw [hmem, hsync.1, hnone, hhost] at hkept
  exact present_of_bodies hc hbodies hkept.symm

/-- **Rollback.** On a device without pending edits, a run that fails
between the first edit and the password leaves every file and the whole
memory as they were, whatever fails, provided that there is a snapshotter and
that `umdns`, `openmanetd` and `luci` have files. Where the profile can be
applied at all, that is also needed. -/
theorem failed_run_undone_iff {d : Device} (hsync : d.host.tree.InSync) :
    (Restorable S d → Undone S p d) ∧ (Viable S p d → (Undone S p d ↔ Restorable S d)) :=
  ⟨undone_of_restorable hsync, fun hviable =>
    ⟨restorable_of_undone hsync hviable, undone_of_restorable hsync⟩⟩

/-- The bench with all its files. -/
theorem failed_run_undone_bench :
    Undone Bench.service Bench.profile
      (Bench.device (Bench.files Bench.wireless Bench.network (some Config.empty))) :=
  (failed_run_undone_iff ⟨rfl, fun _ => rfl⟩).1 ⟨rfl, by decide⟩

/-- The bench without the `luci` file. -/
def Bench.bare : Device := Bench.device (Bench.files Bench.wireless Bench.network none)

/-- Without the `luci` file, the client gone when the password phase starts:
the file is gone again, the config stays in memory. -/
theorem lost_word_leaves_luci_in_memory :
    Bench.bare.host.tree.InSync ∧
      ∃ f d', Bench.service.applySetup Bench.calm.mute (some Bench.profile) Bench.bare
          = .error f d' ∧ f.phase = some .password ∧
        Bench.bare.host.tree.mem "luci" = none ∧ d'.host.tree.disk "luci" = none ∧
        d'.host.tree.mem "luci" ≠ none := by
  refine ⟨⟨rfl, fun _ => rfl⟩, ?_⟩
  have hrun : (match Bench.service.applySetup Bench.calm.mute (some Bench.profile) Bench.bare with
      | .ok _ _ => false
      | .error f d' => f.phase = some .password && (d'.host.tree.disk "luci").isNone
          && (d'.host.tree.mem "luci").isSome) = true := by
    decide +kernel
  generalize Bench.service.applySetup Bench.calm.mute (some Bench.profile) Bench.bare = r at hrun ⊢
  cases r with
  | ok _ d' => cases hrun
  | error f d' =>
      simp only [Bool.and_eq_true, decide_eq_true_eq, Option.isNone_iff_eq_none,
        Option.isSome_iff_ne_none] at hrun
      exact ⟨f, d', rfl, hrun.1.1, rfl, hrun.1.2, hrun.2⟩

end Setup

end OpenManet
