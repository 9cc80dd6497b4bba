import OpenManet.Topology.WellFormed
/-!
# Each node once

The node list comes from three passes. The second and the third leave out a
MAC that has a node, the first does not: it renders every vis entry that is not
another's, and with it a primary that the document repeats. So each node is
rendered once, and this one is told apart, exactly where no primary that stands
for itself is repeated and only a blank MAC resolves to a blank one
(`renderedOnce_iff`).
-/

namespace OpenManet

namespace Topology

open Table

section

variable {M : Type} {R : Runtime M} {F : Metrics M} {S : Snapshot} {I : NodeInputs}

/-! ## What is rendered once -/

/-- **Each node is rendered once**: no two nodes have one MAC, and one node is
this one where its MAC is known. -/
def RenderedOnce (selfMAC : String) (nodes : List MeshNode) : Prop :=
  (nodes.map (·.mac)).Nodup ∧ nodes.countP (·.isSelf) = if selfMAC = "" then 0 else 1

instance (selfMAC : String) (nodes : List MeshNode) : Decidable (RenderedOnce selfMAC nodes) :=
  inferInstanceAs (Decidable (_ ∧ _))

/-- The vis entries that are not another's. -/
def Snapshot.standing (R : Runtime M) (S : Snapshot) : List VisNode :=
  S.visNodes.filter fun v => !((S.primaryByMac R).lookup v.primary).any (· ≠ v.primary)

/-- Nothing is to be rendered twice: of the vis entries that are not another's
no two have one primary, and this node's MAC resolves to a blank one exactly
where it is blank. -/
structure Snapshot.Unrepeated (R : Runtime M) (S : Snapshot) : Prop where
  standing : ((S.standing R).map (·.primary)).Nodup
  blank_iff : S.selfPrimary R = "" ↔ S.selfMAC R = ""

/-! ## The three passes -/

/-- The second pass adds no MAC that is there. -/
theorem nodup_foldl_addOriginatorNode {l : List (String × OriginatorEntry)}
    {nodes : List MeshNode} :
    ((l.foldl (addOriginatorNode I) nodes).map (·.mac)).Nodup ↔ (nodes.map (·.mac)).Nodup := by
  induction l generalizing nodes with
  | nil => exact Iff.rfl
  | cons e l ih =>
    rw [List.foldl_cons, ih]
    unfold addOriginatorNode
    simp only
    split
    · exact Iff.rfl
    · next hunseen =>
      have habsent : resolvePrimary I.primaryByMac e.1 ∉ nodes.map (·.mac) := by
        intro hmem
        obtain ⟨n, hn, hmac⟩ := List.mem_map.1 hmem
        exact hunseen (List.any_eq_true.2 ⟨n, hn, decide_eq_true hmac⟩)
      rw [List.map_append, List.map_singleton, (originatorNode_ok _ _).2,
        List.nodup_append_comm, List.singleton_append, List.nodup_cons]
      exact and_iff_right habsent

/-- **What repeats** is what the first pass repeats. -/
theorem nodup_buildMeshNodes {visNodes : List VisNode} :
    ((buildMeshNodes R I visNodes).map (·.mac)).Nodup ↔
      ((visNodesOf R I visNodes).map (·.mac)).Nodup := by
  have hrouted : ((routedNodes R I visNodes).map (·.mac)).Nodup ↔
      ((visNodesOf R I visNodes).map (·.mac)).Nodup := nodup_foldl_addOriginatorNode
  rw [← hrouted]
  unfold buildMeshNodes
  simp only
  rw [((R.sortNodes_perm _).map _).nodup_iff]
  split
  · next hadd =>
    have habsent : I.selfPrimary ∉ (routedNodes R I visNodes).map (·.mac) := by
      intro hmem
      obtain ⟨n, hn, hmac⟩ := List.mem_map.1 hmem
      have hany : (routedNodes R I visNodes).any (·.mac = I.selfPrimary) = true :=
        List.any_eq_true.2 ⟨n, hn, decide_eq_true hmac⟩
      rw [hany] at hadd
      exact absurd hadd.2 (by decide)
    rw [List.map_append, List.map_singleton, List.nodup_append_comm, List.singleton_append,
      List.nodup_cons]
    exact and_iff_right habsent
  · exact Iff.rfl

/-- The flags that come after the node list touch no MAC. -/
theorem map_mac_nodes :
    (S.nodes R F).map (·.mac) = (buildMeshNodes R (S.nodeInputs R F) S.visNodes).map (·.mac) := by
  unfold Snapshot.nodes
  rw [List.map_map]
  refine List.map_congr_left fun n _ => ?_
  unfold Function.comp applyGatewayFlag applyGossipState
  grind

theorem map_mac_visNodesOf :
    (visNodesOf R (S.nodeInputs R F) S.visNodes).map (·.mac) = (S.standing R).map (·.primary) := by
  unfold visNodesOf
  rw [List.map_map]
  exact List.map_congr_left fun v _ => (visNode_ok v).2

theorem nodup_nodes :
    ((S.nodes R F).map (·.mac)).Nodup ↔ ((S.standing R).map (·.primary)).Nodup := by
  rw [map_mac_nodes, nodup_buildMeshNodes, map_mac_visNodesOf]

/-! ## This node -/

/-- This node's flag goes with its MAC. -/
theorem isSelf_iff_of_mem {n : MeshNode} (hn : n ∈ S.nodes R F) :
    n.isSelf = true ↔ n.mac = S.selfPrimary R ∧ S.selfPrimary R ≠ "" := by
  obtain ⟨n', hn', hmac, -, hself⟩ := mem_nodes hn
  have hok := buildMeshNodes_all (I := S.nodeInputs R F) (Q := fun _ => True) (fun _ _ => trivial)
    (fun _ _ _ => trivial) (fun _ _ _ => trivial) (fun _ => trivial) lookup_selfPrimary n' hn'
  rw [hself, hmac]
  exact hok.1.isSelf_iff

/-- **One node is this one** where its MAC resolves, and none where it does
not. -/
theorem countP_isSelf_nodes (hnodup : ((S.nodes R F).map (·.mac)).Nodup) :
    (S.nodes R F).countP (·.isSelf) = if S.selfPrimary R = "" then 0 else 1 := by
  split
  · next hblank =>
    refine List.countP_eq_zero.2 fun n hn hself => ?_
    exact ((isSelf_iff_of_mem hn).1 hself).2 hblank
  · next hknown =>
    have hcount : (S.nodes R F).countP (·.isSelf) =
        ((S.nodes R F).map (·.mac)).count (S.selfPrimary R) := by
      rw [List.count, List.countP_map]
      refine List.countP_congr fun n hn => ?_
      rw [isSelf_iff_of_mem hn, and_iff_left hknown, Function.comp_apply, beq_iff_eq]
    have hself : ∃ n' ∈ buildMeshNodes R (S.nodeInputs R F) S.visNodes,
        n'.mac = S.selfPrimary R := exists_selfPrimary hknown
    obtain ⟨n', hn', hmac⟩ := hself
    obtain ⟨n, hn, hsame, -, -⟩ := mem_nodes_of_mem hn'
    rw [hcount]
    exact List.count_eq_one_of_mem hnodup (List.mem_map.2 ⟨n, hn, hsame.trans hmac⟩)

end

/-! ## When each is rendered once -/

/-- **When each node is rendered once**: exactly where the document repeats no
primary that stands for itself and only a blank MAC resolves to a blank one. -/
theorem renderedOnce_iff {M : Type} (R : Runtime M) (F : Metrics M) (S : Snapshot) :
    RenderedOnce (S.selfMAC R) (mergeMeshTopology R F S).nodes ↔ S.Unrepeated R := by
  have hblank : ∀ p q : String,
      ((if p = "" then 0 else 1) = if q = "" then 0 else 1) ↔ (p = "" ↔ q = "") := by
    intro p q
    by_cases hp : p = ""
    · by_cases hq : q = "" <;> simp [hp, hq]
    · by_cases hq : q = "" <;> simp [hp, hq]
  constructor
  · rintro ⟨hnodup, hcount⟩
    refine ⟨nodup_nodes.1 hnodup, (hblank _ _).1 ?_⟩
    rw [← countP_isSelf_nodes hnodup]
    exact hcount
  · rintro ⟨hstanding, hself⟩
    have hnodup : ((S.nodes R F).map (·.mac)).Nodup := nodup_nodes.2 hstanding
    exact ⟨hnodup, (countP_isSelf_nodes hnodup).trans ((hblank _ _).2 hself)⟩

/-- A document that lists this node twice. -/
def selfTwice : Snapshot where
  visDoc := some ⟨[⟨"aa", [], []⟩, ⟨"aa", [], []⟩], 15⟩
  origSnap := ⟨"aa", "", "BATMAN_V", []⟩
  batHosts := none
  neighborsProvider := none
  gatewayMacs := []

/-- **This node is rendered twice**, and each of the two is this one. -/
theorem repeated_primary_twice :
    ¬ RenderedOnce (selfTwice.selfMAC (.plain Unit))
      (mergeMeshTopology (.plain Unit) .unknown selfTwice).nodes := by
  have hmacs : (mergeMeshTopology (.plain Unit) .unknown selfTwice).nodes.map (·.mac) =
      ["aa", "aa"] := by decide +kernel
  rintro ⟨hnodup, -⟩
  rw [hmacs] at hnodup
  exact absurd hnodup (by decide)

section

variable {M : Type} {R : Runtime M} {S : Snapshot}

/-! ## Documents without blank MACs -/

theorem visPrimaries_keys {Q : String → Prop} {visNodes : List VisNode}
    (hvis : ∀ v ∈ visNodes, Q v.primary ∧ ∀ sec ∈ v.secondary, Q sec) :
    All (fun mac _ => Q mac) (visPrimaries visNodes) := by
  refine All.empty.foldl fun m hm v hv => ?_
  exact (hm.insert (hvis v hv).1).foldl fun m hm sec hsec => hm.insert ((hvis v hv).2 sec hsec)

theorem ensurePrimary_keys {Q : String → Prop} {m : Table String} (hm : All (fun mac _ => Q mac) m)
    {mac : String} (h : mac ≠ "" → Q mac) : All (fun mac _ => Q mac) (ensurePrimary m mac) := by
  unfold ensurePrimary
  split
  · next hmac => exact hm.insert (h hmac.1)
  · exact hm

/-- **Which MACs resolve**: those of the vis document and the lower-cased ones
of the originator table. -/
theorem primaryByMac_keys {Q : String → Prop} (S : Snapshot)
    (hvis : ∀ v ∈ S.visNodes, Q v.primary ∧ ∀ sec ∈ v.secondary, Q sec)
    (hlower : ∀ mac, R.toLower mac ≠ "" → Q (R.toLower mac)) :
    All (fun mac _ => Q mac) (S.primaryByMac R) := by
  have hmacs : All (fun mac _ => Q mac) (macPrimaries R S.visNodes S.origSnap) := by
    refine (ensurePrimary_keys (visPrimaries_keys hvis) (hlower _)).foldl fun m hm o _ => ?_
    exact ensurePrimary_keys hm (hlower _)
  unfold Snapshot.primaryByMac foldHostnameAliases
  split
  · exact hmacs
  · refine hmacs.foldl fun m hm entry hentry => ?_
    have hgroup := groupPrimariesByHostname_all (R := R) (fun v hv => (hvis v hv).1) (hlower _) _ _
      ((mem_range (R.order_perm _ _)).1 hentry)
    simp only
    split
    · exact hm
    · refine hm.foldl fun m hm p hp => ?_
      split
      · exact hm
      · refine (hm.insert (hgroup p hp)).foldl fun m hm v hv => ?_
        exact hm.foldl fun m hm sec hsec =>
          hm.insert ((hvis v (List.mem_filter.1 hv).1).2 sec hsec)

/-- **Documents that repeat nothing**: with no blank MAC in the document and no
primary repeated, each node is rendered once. -/
theorem unrepeated_of_nodup (hne : ∀ v ∈ S.visNodes, v.primary ≠ "" ∧ ∀ sec ∈ v.secondary, sec ≠ "")
    (hnodup : (S.visNodes.map (·.primary)).Nodup) : S.Unrepeated R := by
  refine ⟨hnodup.sublist (List.filter_sublist.map _), ?_⟩
  have hkeys : All (fun mac _ => mac ≠ "") (S.primaryByMac R) :=
    primaryByMac_keys S hne fun mac hlowered => hlowered
  have hvalues : All (fun _ p => p ≠ "") (S.primaryByMac R) :=
    primaryByMac_all S (fun v hv => (hne v hv).1) id fun _ _ => id
  constructor
  · intro hself
    by_contra hmac
    obtain ⟨p, hp⟩ := Option.isSome_iff_exists.1
      (AList.lookup_isSome.2 (selfMAC_mem_primaryByMac S hmac))
    refine hvalues _ p hp ?_
    rwa [Snapshot.selfPrimary, Table.get, hp] at hself
  · intro hmac
    rw [Snapshot.selfPrimary, hmac, Table.get]
    cases hlookup : (S.primaryByMac R).lookup "" with
    | none => rfl
    | some p => exact absurd rfl (hkeys _ _ hlookup)

end

end Topology

end OpenManet
