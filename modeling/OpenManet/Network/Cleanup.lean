import OpenManet.Lib.Uci.Clearing
import OpenManet.Network.Bridges
/-!
# What the clean-ups remove

Four operations clear sections out of a config before the wizard builds its
own: the bridges and the batman-adv interfaces of the network config, the
firewall rules, and the interfaces that a HaLow radio does not keep. The
rules are deleted from the last to the first, as their places require. The
other three go along the listing from the first to the last, and a section
without a name that follows a deleted one may be passed over. None of them
removes anything else.
-/

namespace OpenManet

namespace Network

open Uci Fallible

/-! ## What each is to remove -/

/-- A `device` that is a bridge. -/
def bridgeSection (s : Section) : Bool := (s.get "type").head? == some "bridge"

/-- An `interface` of one of the two batman-adv protocols. -/
def batadvSection (s : Section) : Bool :=
  match s.get "proto" with
  | proto :: _ => proto == "batadv" || proto == "batadv_hardif"
  | [] => false

/-- The radios of type `morse`, by their addresses. -/
def morseDevices (t : Tree) : List String :=
  match t.mem "wireless" with
  | some c => (c.refs "wifi-device").filter (isMorseDevice t)
  | none => []

/-- A `wifi-iface` on one of the radios, in a mode other than mesh. -/
def nonMeshSection (morse : List String) (s : Section) : Bool :=
  match s.get "device" with
  | dev :: _ => dev ∈ morse && (s.get "mode").head? != some "mesh"
  | [] => false

/-- The sections of a config. -/
def sectionsIn (t : Tree) (config : String) : List Section :=
  match t.mem config with
  | some c => c.sections
  | none => []

/-- The section is not one of those to remove. -/
def spared (type : String) (doomed : Section → Bool) (s : Section) : Bool :=
  !(decide (s.type = type) && doomed s)

/-- **All and only what is to be removed is removed.** -/
structure Cleans (config type : String) (doomed : Section → Bool) (t t' : Tree) : Prop where
  gone : ∀ s ∈ sectionsIn t' config, s.type = type → doomed s = false
  /-- Every other section is there, with its options. -/
  kept : (sectionsIn t' config).filter (spared type doomed) =
    (sectionsIn t config).filter (spared type doomed)
  others : ∀ config' ≠ config, t'.mem config' = t.mem config'

/-- No unnamed section to be removed is passed over, on the way along the
sections of the type. -/
def SeenIn (config type : String) (doomed : Section → Bool) (t : Tree) : Prop :=
  Uci.Config.AllSeen doomed ((sectionsIn t config).filter fun s => s.type = type)
    ((sectionsIn t config).filter fun s => s.type = type)

instance (config type : String) (doomed : Section → Bool) (t : Tree) :
    Decidable (SeenIn config type doomed t) := Uci.Config.AllSeen.decidable _ _ _

/-! ## The walks -/

section Walks

variable {config type : String} {doomed : Section → Bool} {c c' : Uci.Config} {h h' : Host}

theorem sectionsIn_of_mem {t : Tree} (hmem : t.mem config = some c) :
    sectionsIn t config = c.sections := by
  rw [sectionsIn, hmem]

/-- **What a walk comes to.** -/
theorem cleans_of_walk (htype : '[' ∉ type.toList) (hmem : h.tree.mem config = some c)
    (hmem' : h'.tree.mem config =
      some (c.walk (Uci.Config.selects doomed) (c.refs type)))
    (hothers : ∀ config' ≠ config, h'.tree.mem config' = h.tree.mem config') :
    Cleans config type doomed h.tree h'.tree ↔ SeenIn config type doomed h.tree := by
  have hclears := c.walk_clears_iff htype doomed
  rw [SeenIn, sectionsIn_of_mem hmem, ← Uci.Config.ofType, ← hclears]
  constructor
  · intro hcleans s hs
    obtain ⟨hin, hkind⟩ := Uci.Config.mem_ofType.1 hs
    exact hcleans.gone s (by rwa [sectionsIn_of_mem hmem']) hkind
  · intro hall
    refine ⟨fun s hs hkind => ?_, ?_, hothers⟩
    · rw [sectionsIn_of_mem hmem'] at hs
      exact hall s (Uci.Config.mem_ofType.2 ⟨hs, hkind⟩)
    · rw [sectionsIn_of_mem hmem', sectionsIn_of_mem hmem]
      refine Uci.Config.walk_keeps (fun _ href => href) (fun s hs => hs) fun d e he hkind hsel => ?_
      have hdoomed : doomed e.2 = true := by
        rwa [Uci.Config.selects, Uci.Config.find_ownRef he] at hsel
      simp [spared, hkind, hdoomed]

/-- **What a walk from the last to the first comes to.** -/
theorem cleans_of_walk_reverse (hmem : h.tree.mem config = some c)
    (hmem' : h'.tree.mem config =
      some (c.walk (fun _ _ => true) (c.refs type).reverse))
    (hothers : ∀ config' ≠ config, h'.tree.mem config' = h.tree.mem config') :
    Cleans config type (fun _ => true) h.tree h'.tree := by
  have hclears := c.walk_reverse_clears (fun _ _ => true) (fun _ _ => rfl) type
  refine ⟨fun s hs hkind => ?_, ?_, hothers⟩
  · rw [sectionsIn_of_mem hmem'] at hs
    have hin := Uci.Config.mem_ofType.2 ⟨hs, hkind⟩
    rw [hclears] at hin
    cases hin
  · rw [sectionsIn_of_mem hmem', sectionsIn_of_mem hmem]
    refine Uci.Config.walk_keeps (fun ref href => List.mem_reverse.1 href) (fun s hs => hs)
      fun d e _ hkind _ => ?_
    simp [spared, hkind]

/-- Where nothing is to be removed and nothing changes. -/
theorem cleans_of_none (hnone : ∀ s, doomed s = false) (hsame : h'.tree = h.tree) :
    Cleans config type doomed h.tree h'.tree ↔ SeenIn config type doomed h.tree := by
  rw [hsame]
  exact iff_of_true ⟨fun s _ _ => hnone s, rfl, fun _ _ => rfl⟩
    (Uci.Config.allSeen_of_spared fun s _ => hnone s)

end Walks

/-! ## The operations -/

section Operations

variable {h h' : Host}

/-- An operation that edits one config leaves the others. -/
theorem others_of_edits {α : Type} {m : Prog α} {config : String} {a : α}
    (hm : Within (Edits [config] []) m) (hrun : m h = .ok a h') :
    ∀ config' ≠ config, h'.tree.mem config' = h.tree.mem config' := fun config' hne =>
  mem_of_edits hm (by simpa using hne) hrun

theorem cleans_deleteSections {config type what : String} {doomed : Tree → String → Bool}
    {test : Section → Bool} (htype : '[' ∉ type.toList)
    (htest : ∀ t c ref, t.mem config = some c → doomed t ref = (c.find ref).any test)
    (hrun : deleteSections config type what doomed h = .ok () h') :
    Cleans config type test h.tree h'.tree ↔ SeenIn config type test h.tree := by
  have hsel : ∀ t c ref, t.mem config = some c → doomed t ref = Uci.Config.selects test c ref := htest
  obtain ⟨c, hmem, hmem'⟩ := leaves_deleteSections hsel h () h' hrun
  exact cleans_of_walk htype hmem hmem'
    (others_of_edits (within_deleteSections (List.mem_singleton_self config)) hrun)

theorem isBridge_eq {t : Tree} {c : Uci.Config} {ref : String} (hmem : t.mem "network" = some c) :
    isBridge t ref = (c.find ref).any bridgeSection := by
  rw [isBridge, Tree.get_of_mem hmem, Uci.Config.get]
  cases c.find ref <;> rfl

theorem isBatadv_eq {t : Tree} {c : Uci.Config} {ref : String} (hmem : t.mem "network" = some c) :
    isBatadv t ref = (c.find ref).any batadvSection := by
  rw [isBatadv, Tree.get_of_mem hmem, Uci.Config.get]
  cases c.find ref <;> rfl

theorem nonMeshOn_eq {t : Tree} {c : Uci.Config} {ref : String} {morse : List String}
    (hmem : t.mem "wireless" = some c) :
    nonMeshOn morse t ref = (c.find ref).any (nonMeshSection morse) := by
  rw [nonMeshOn, Tree.get_of_mem hmem, Tree.get_of_mem hmem, Uci.Config.get, Uci.Config.get]
  cases c.find ref <;> rfl

theorem cleans_removeAllRules (hrun : removeAllRules h = .ok () h') :
    Cleans "firewall" "rule" (fun _ => true) h.tree h'.tree := by
  obtain ⟨c, hmem, hmem'⟩ := walks_removeAllRules h () h' hrun
  exact cleans_of_walk_reverse hmem hmem'
    (others_of_edits (within_removeAllRules (List.mem_singleton_self "firewall")) hrun)

theorem cleans_removeNonMesh (hrun : removeNonMeshIfacesOnMorseDevices h = .ok () h') :
    Cleans "wireless" "wifi-iface" (nonMeshSection (morseDevices h.tree)) h.tree h'.tree ↔
      SeenIn "wireless" "wifi-iface" (nonMeshSection (morseDevices h.tree)) h.tree := by
  have hleaves : Leaves removeNonMeshIfacesOnMorseDevices h fun _ h' =>
      morseDevices h.tree = [] ∧ h'.tree = h.tree ∨
        ∃ c, h.tree.mem "wireless" = some c ∧ h'.tree.mem "wireless" = some
          (c.walk (Uci.Config.selects (nonMeshSection (morseDevices h.tree)))
            (c.refs "wifi-iface")) := by
    unfold removeNonMeshIfacesOnMorseDevices
    rw [leaves_bind, leaves_saying]
    refine leaves_getSections fun c tick hmem => ?_
    rw [leaves_bind, leaves_tree]
    have hmorse : (c.refs "wifi-device").filter (isMorseDevice h.tree) = morseDevices h.tree := by
      rw [morseDevices, hmem]
    dsimp only
    rw [hmorse, leaves_ite]
    refine ⟨fun hnone => (leaves_pure _).2 (.inl ⟨hnone, rfl⟩), fun _ => ?_⟩
    rw [leaves_bind, leaves_saying]
    refine leaves_getSections fun c' tick' hmem' => ?_
    obtain rfl : c = c' := Option.some.inj (hmem.symm.trans hmem')
    have hturn : ∀ ref c' g, g.tree.mem "wireless" = some c' → Leaves (do
        if nonMeshOn (morseDevices h.tree) (← tree) ref then
          saying ("deleting " ++ ref) (delSection "wireless" ref)
        else pure ()) g fun _ g' => g'.tree.mem "wireless" = some
          (if Uci.Config.selects (nonMeshSection (morseDevices h.tree)) c' ref then c'.erase ref
            else c') :=
      fun ref c' g hg => leaves_walk_turn (fun t c ref ht => nonMeshOn_eq ht) hg
    exact (leaves_walk hturn _ c { h with tick := tick' } hmem).mono
      fun _ h' hmem' => .inr ⟨c, hmem, hmem'⟩
  rcases hleaves () h' hrun with ⟨hnone, hsame⟩ | ⟨c, hmem, hmem'⟩
  · refine cleans_of_none (fun s => ?_) hsame
    rw [nonMeshSection, hnone]
    split <;> simp
  · exact cleans_of_walk (by decide) hmem hmem'
      (others_of_edits (within_removeNonMeshIfacesOnMorseDevices
        (List.mem_singleton_self "wireless")) hrun)

/-- **What the clean-ups remove**: the rules always; the bridges, the
batman-adv interfaces and the interfaces a HaLow radio does not keep where
none without a name is passed over, and only there. -/
theorem cleans_iff (h h' : Host) :
    (removeAllBridgeDevices h = .ok () h' →
      (Cleans "network" "device" bridgeSection h.tree h'.tree ↔
        SeenIn "network" "device" bridgeSection h.tree)) ∧
    (removeAllBatadvInterfaces h = .ok () h' →
      (Cleans "network" "interface" batadvSection h.tree h'.tree ↔
        SeenIn "network" "interface" batadvSection h.tree)) ∧
    (removeAllRules h = .ok () h' → Cleans "firewall" "rule" (fun _ => true) h.tree h'.tree) ∧
    (removeNonMeshIfacesOnMorseDevices h = .ok () h' →
      (Cleans "wireless" "wifi-iface" (nonMeshSection (morseDevices h.tree)) h.tree h'.tree ↔
        SeenIn "wireless" "wifi-iface" (nonMeshSection (morseDevices h.tree)) h.tree)) :=
  ⟨cleans_deleteSections (by decide) fun _ _ _ => isBridge_eq,
    cleans_deleteSections (by decide) fun _ _ _ => isBatadv_eq,
    cleans_removeAllRules, cleans_removeNonMesh⟩

end Operations

/-! ## Two nodes -/

/-- The options of a section, each with one value. -/
def optionsOf (values : List (String × String)) : Table (List String) :=
  values.foldl (fun o w => o.insert w.1 [w.2]) ∅

/-- A node whose sections have names, the rules apart. -/
def namedNode : Host where
  tree :=
    { mem := fun config =>
        if config = "network" then some
          { sections :=
              [⟨"device", "br_lan", optionsOf [("type", "bridge")]⟩,
                ⟨"device", "br_ahwlan", optionsOf [("type", "bridge")]⟩,
                ⟨"interface", "bat0", optionsOf [("proto", "batadv")]⟩,
                ⟨"interface", "batmesh0", optionsOf [("proto", "batadv_hardif")]⟩]
            plain := by decide +kernel
            ident := by decide +kernel
            distinct := by decide +kernel }
        else if config = "firewall" then some
          { sections := [⟨"rule", "", ∅⟩, ⟨"rule", "", ∅⟩, ⟨"zone", "lan", ∅⟩]
            plain := by decide +kernel
            ident := by decide +kernel
            distinct := by decide +kernel }
        else if config = "wireless" then some
          { sections :=
              [⟨"wifi-device", "radio0", optionsOf [("type", "morse")]⟩,
                ⟨"wifi-iface", "meshap_radio0", optionsOf [("device", "radio0"), ("mode", "ap")]⟩,
                ⟨"wifi-iface", "mesh_radio0", optionsOf [("device", "radio0"), ("mode", "mesh")]⟩]
            plain := by decide +kernel
            ident := by decide +kernel
            distinct := by decide +kernel }
        else none
      disk := fun _ => none
      dirty := fun _ => false }
  tick := 0
  fate := ⟨fun _ => false, fun _ _ => false⟩

/-- Its clean-ups. -/
theorem cleans_iff_named :
    Cleans "network" "device" bridgeSection namedNode.tree
        (final removeAllBridgeDevices namedNode).tree ∧
      Cleans "network" "interface" batadvSection namedNode.tree
        (final removeAllBatadvInterfaces namedNode).tree ∧
      Cleans "firewall" "rule" (fun _ => true) namedNode.tree
        (final removeAllRules namedNode).tree ∧
      Cleans "wireless" "wifi-iface" (nonMeshSection (morseDevices namedNode.tree)) namedNode.tree
        (final removeNonMeshIfacesOnMorseDevices namedNode).tree :=
  ⟨((cleans_iff namedNode _).1 (ok_of_succeeds (by decide +kernel))).2 (by decide +kernel),
    ((cleans_iff namedNode _).2.1 (ok_of_succeeds (by decide +kernel))).2 (by decide +kernel),
    (cleans_iff namedNode _).2.2.1 (ok_of_succeeds (by decide +kernel)),
    ((cleans_iff namedNode _).2.2.2 (ok_of_succeeds (by decide +kernel))).2 (by decide +kernel)⟩

/-- A node with two bridges that have no names. -/
def unnamedNode : Host where
  tree :=
    { mem := fun config =>
        if config = "network" then some
          { sections :=
              [⟨"device", "", optionsOf [("type", "bridge"), ("name", "br-lan")]⟩,
                ⟨"device", "", optionsOf [("type", "bridge"), ("name", "br-prpl")]⟩]
            plain := by decide +kernel
            ident := by decide +kernel
            distinct := by decide +kernel }
        else none
      disk := fun _ => none
      dirty := fun _ => false }
  tick := 0
  fate := ⟨fun _ => false, fun _ _ => false⟩

/-- The second bridge is left. -/
theorem unnamed_bridge_left :
    ¬ ∀ h h' : Host, removeAllBridgeDevices h = .ok () h' →
      Cleans "network" "device" bridgeSection h.tree h'.tree := by
  intro hall
  have hcleans := hall unnamedNode _ (ok_of_succeeds (by decide +kernel))
  have hleft : ∃ s ∈ sectionsIn (final removeAllBridgeDevices unnamedNode).tree "network",
      s.type = "device" ∧ bridgeSection s = true := by
    decide +kernel
  obtain ⟨s, hs, hkind, hbridge⟩ := hleft
  have hgone := hcleans.gone s hs hkind
  rw [hbridge] at hgone
  cases hgone

end Network

end OpenManet
