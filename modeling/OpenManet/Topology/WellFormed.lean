import OpenManet.Topology.Merge
/-!
# The graph is well formed

Every pass over the edges goes through `addEdge` or rewrites an edge that is
there, so what `addEdge` sees to holds of all of them: two rendered
endpoints, in order, under a key of their own, and the flag that compares
their segments. Every node carries the segment of its MAC. The two meet where
the MAC of a node is the MAC an edge names: `addEdge` lower-cases and the
nodes do not, so that takes vis primaries in lower case, as `ParseVisDoc`
delivers them.
-/

namespace OpenManet

namespace Topology

open Table

/-! ## Aliases -/

section Aliases

variable {M : Type} {R : Runtime M} {visNodes : List VisNode} {Q : String → Prop}

theorem secondaryOwners_all (hvis : ∀ v ∈ visNodes, Q v.primary) :
    All (fun _ owner => Q owner) (secondaryOwners visNodes) := by
  refine All.empty.foldl fun owners howners v hv => ?_
  exact howners.foldl fun owners howners sec _ => howners.insert (hvis v hv)

theorem get_of_all {m : Table String} (hm : All (fun _ v => Q v) m) {k : String}
    (h : m.get k ≠ "") : Q (m.get k) := by
  unfold Table.get at h ⊢
  cases hlookup : m.lookup k with
  | none => rw [hlookup] at h; exact absurd rfl h
  | some v => exact hm k v hlookup

theorem visPrimaries_all (hvis : ∀ v ∈ visNodes, Q v.primary) :
    All (fun _ p => Q p) (visPrimaries visNodes) := by
  refine All.empty.foldl fun primaryByMac hprimary v hv => ?_
  have hcanonical : Q (if (secondaryOwners visNodes).get v.primary ≠ "" then
      (secondaryOwners visNodes).get v.primary else v.primary) := by
    split
    · rename_i howner
      exact get_of_all (secondaryOwners_all hvis) howner
    · exact hvis v hv
  exact (hprimary.insert hcanonical).foldl fun _ h sec _ => h.insert hcanonical

theorem ensurePrimary_all {m : Table String} (hm : All (fun _ v => Q v) m) {mac : String}
    (h : mac ≠ "" → Q mac) : All (fun _ v => Q v) (ensurePrimary m mac) := by
  unfold ensurePrimary
  split
  · rename_i hmac
    exact hm.insert (h hmac.1)
  · exact hm

theorem pickFrom_mem (selfMAC canonical : String) (group : List String) :
    pickFrom selfMAC canonical group ∈ canonical :: group := by
  induction group generalizing canonical with
  | nil => exact List.mem_cons_self
  | cons p group ih =>
      unfold pickFrom
      split
      · exact List.mem_cons_of_mem canonical List.mem_cons_self
      · split
        · exact List.mem_cons_of_mem canonical (ih p)
        · rcases List.mem_cons.1 (ih canonical) with h | h
          · rw [h]
            exact List.mem_cons_self
          · exact List.mem_cons_of_mem canonical (List.mem_cons_of_mem p h)

theorem pickCanonicalPrimary_mem {group : List String} (h : group ≠ []) (selfMAC : String) :
    pickCanonicalPrimary group selfMAC ∈ group := by
  cases group with
  | nil => exact absurd rfl h
  | cons p group =>
      rcases List.mem_cons.1 (pickFrom_mem selfMAC p (p :: group)) with hpick | hpick
      · exact List.mem_cons.2 (.inl hpick)
      · exact hpick

/-- The primaries that host names group are vis primaries or this node's. -/
theorem groupPrimariesByHostname_all (hvis : ∀ v ∈ visNodes, Q v.primary)
    {primaryByMac : Table String} {origByMac : Table OriginatorEntry} {batHosts : Option BatHosts}
    {selfMAC selfHostname : String} (hself : selfMAC ≠ "" → Q selfMAC) :
    All (fun _ group => ∀ p ∈ group, Q p)
      (groupPrimariesByHostname R visNodes primaryByMac origByMac batHosts selfMAC
        selfHostname) := by
  have hnames : All (fun p _ => Q p)
      (groupingHostnames R visNodes primaryByMac origByMac batHosts selfMAC selfHostname) := by
    have hfold : All (fun p _ => Q p) (visNodes.foldl (fun hostnameByPrimary v =>
        if (primaryByMac.lookup v.primary).any (· ≠ v.primary) then hostnameByPrimary
        else
          let name := lookupHostname R v (lookupOrigEntry v origByMac) batHosts
          if name ≠ "" then hostnameByPrimary.insert v.primary name
          else hostnameByPrimary) (∅ : Table String)) := by
      refine All.empty.foldl fun m hm v hv => ?_
      split
      · exact hm
      · simp only
        split
        · exact hm.insert (hvis v hv)
        · exact hm
    unfold groupingHostnames
    simp only
    split
    · rename_i hknown
      exact hfold.insert (hself hknown.1)
    · exact hfold
  refine All.empty.foldl fun groups hgroups entry hentry => ?_
  have hprimary : Q entry.1 := hnames _ _ ((mem_range (R.order_perm _ _)).1 hentry)
  refine hgroups.insert fun p hp => ?_
  rcases List.mem_append.1 hp with hold | hnew
  · cases hlookup : groups.lookup entry.2 with
    | none => rw [hlookup] at hold; cases hold
    | some group =>
        rw [hlookup] at hold
        exact hgroups _ _ hlookup p hold
  · rw [List.mem_singleton.1 hnew]
    exact hprimary

theorem applyCanonicalPrimary_all {m : Table String} (hm : All (fun _ v => Q v) m)
    {canonical : String} (h : Q canonical) (group : List String) :
    All (fun _ v => Q v) (applyCanonicalPrimary visNodes m group canonical) := by
  refine hm.foldl fun m hm p _ => ?_
  split
  · exact hm
  · refine (hm.insert h).foldl fun m hm v _ => ?_
    exact hm.foldl fun m hm sec _ => hm.insert h

/-- **What aliases stand for.** Every MAC resolves to a vis primary or to a
lower-cased MAC of the originator table. -/
theorem primaryByMac_all (S : Snapshot) (hvis : ∀ v ∈ S.visNodes, Q v.primary)
    (hself : S.selfMAC R ≠ "" → Q (S.selfMAC R))
    (horig : ∀ o ∈ S.origSnap.originators, R.toLower o.origMAC ≠ "" → Q (R.toLower o.origMAC)) :
    All (fun _ p => Q p) (S.primaryByMac R) := by
  have hmacs : All (fun _ p => Q p) (macPrimaries R S.visNodes S.origSnap) := by
    refine (ensurePrimary_all (visPrimaries_all hvis) hself).foldl fun m hm o ho => ?_
    exact ensurePrimary_all hm (horig o ho)
  unfold Snapshot.primaryByMac foldHostnameAliases
  split
  · exact hmacs
  · refine hmacs.foldl fun m hm entry hentry => ?_
    have hgroup := groupPrimariesByHostname_all (R := R) hvis hself _ _
      ((mem_range (R.order_perm _ _)).1 hentry)
    simp only
    split
    · exact hm
    · rename_i hlong
      refine applyCanonicalPrimary_all hm (hgroup _ (pickCanonicalPrimary_mem ?_ _)) _
      rintro hnil
      simp [hnil] at hlong

/-- This node's MAC resolves. -/
theorem selfMAC_mem_primaryByMac (S : Snapshot) (h : S.selfMAC R ≠ "") :
    S.selfMAC R ∈ S.primaryByMac R := by
  have hfirst : S.selfMAC R ∈ ensurePrimary (visPrimaries S.visNodes) (S.selfMAC R) := by
    unfold ensurePrimary
    split
    · exact (AList.mem_insert _).2 (.inl rfl)
    · rename_i hknown
      rw [← AList.lookup_isSome]
      cases hlookup : (visPrimaries S.visNodes).lookup (S.selfMAC R) with
      | some p => rfl
      | none => exact absurd ⟨h, by simp [Table.get, hlookup]⟩ hknown
  -- from here on keys only come
  have hmacs : S.selfMAC R ∈ macPrimaries R S.visNodes S.origSnap := by
    refine mem_foldl hfirst fun m hm o _ => ?_
    unfold ensurePrimary
    split
    · exact mem_insert_of_mem hm _ _
    · exact hm
  unfold Snapshot.primaryByMac foldHostnameAliases
  split
  · exact hmacs
  · refine mem_foldl hmacs fun m hm entry _ => ?_
    simp only
    split
    · exact hm
    · refine mem_foldl hm fun m hm p _ => ?_
      split
      · exact hm
      · refine mem_foldl (mem_insert_of_mem hm _ _) fun m hm v _ => ?_
        exact mem_foldl hm fun m hm sec _ => mem_insert_of_mem hm _ _

end Aliases

/-! ## Gossip -/

section Gossip

variable {M : Type} {R : Runtime M} {F : Metrics M}

theorem resolvePrimary_ne_empty {primaryByMac : Table String} {mac : String} (h : mac ≠ "") :
    resolvePrimary primaryByMac mac ≠ "" := by
  unfold resolvePrimary
  split
  · assumption
  · exact h

theorem addReport_all {P : String → Prop} {target : Table M}
    (h : All (fun nb _ => P nb) target) {nmac : String} (hn : P nmac) (metric : M) :
    All (fun nb _ => P nb) (addReport F target nmac metric) := by
  unfold addReport
  split
  · exact h.insert hn
  · split
    · exact h.insert hn
    · exact h

/-- No neighbour is claimed without a MAC. -/
theorem classifyGossipNeighbors_all (payload : MeshNeighbors) (primaryByMac : Table String) :
    All (fun nb _ => nb ≠ "") (classifyGossipNeighbors R F payload primaryByMac).1 := by
  refine List.foldlRecOn (motive := fun sets : Table M × Table M => All (fun nb _ => nb ≠ "") sets.1)
    _ _ All.empty fun sets hsets n _ => ?_
  simp only
  split
  · exact hsets
  · rename_i hmac
    split
    · exact hsets
    · split
      · exact hsets
      · exact addReport_all hsets hmac _

/-- The claims by radio are of primaries, about primaries. -/
def Named (gossip : GossipView M) : Prop :=
  All (fun primary rfSet => primary ≠ "" ∧ All (fun nb _ => nb ≠ "") rfSet) gossip.rfByPrimary

theorem viewEntry_named {provider : MeshNeighborsProvider}
    {primaryByMac hostnameByPrimary : Table String} {view : GossipView M} (h : Named view)
    (v : VisNode) : Named (viewEntry R F provider primaryByMac hostnameByPrimary view v) := by
  unfold viewEntry
  simp only
  split
  · exact h
  · rename_i hprimary
    split
    · exact h
    · exact h.insert ⟨hprimary, classifyGossipNeighbors_all _ _⟩

theorem gossip_named (S : Snapshot) : Named (S.gossip R F) := by
  unfold Snapshot.gossip buildGossipView
  split
  · exact All.empty
  · exact List.foldlRecOn (motive := Named) _ _ All.empty fun view h v _ => viewEntry_named h v

end Gossip

/-! ## Edges -/

section Edges

variable {M : Type} {R : Runtime M} {F : Metrics M} {I : EdgeInputs M}

/-- What `addEdge` sees to. -/
structure EdgeOK (I : EdgeInputs M) (key : String) (e : MeshEdge M) : Prop where
  key_eq : key = pairKey (e.fromMac, e.toMac)
  lt : e.fromMac < e.toMac
  from_mem : e.fromMac ∈ I.knownPrimaries
  to_mem : e.toMac ∈ I.knownPrimaries
  from_ne : e.fromMac ≠ ""
  to_ne : e.toMac ≠ ""
  blos_eq : e.blos = decide (segmentOrDefault I.segmentByPrimary e.fromMac ≠
    segmentOrDefault I.segmentByPrimary e.toMac)

/-- Of an edge that is there, only the metric and the path change. -/
theorem EdgeOK.update {key : String} {e : MeshEdge M} (h : EdgeOK I key e) (metric : M)
    (onMyPath : Bool) : EdgeOK I key { e with metric := metric, onMyPath := onMyPath } :=
  ⟨h.key_eq, h.lt, h.from_mem, h.to_mem, h.from_ne, h.to_ne, h.blos_eq⟩

theorem canonicalPair_lt {a b : String} (h : (canonicalPair R a b).1 ≠ (canonicalPair R a b).2) :
    (canonicalPair R a b).1 < (canonicalPair R a b).2 := by
  unfold canonicalPair at h ⊢
  split at h
  · rename_i hlt
    rwa [if_pos hlt]
  · rename_i hge
    rw [if_neg hge]
    exact lt_of_le_of_ne (not_lt.1 hge) h

theorem canonicalPair_ne_empty {a b : String} (ha : a ≠ "") (hb : b ≠ "") :
    (canonicalPair R a b).1 ≠ "" ∧ (canonicalPair R a b).2 ≠ "" := by
  unfold canonicalPair
  split
  · exact ⟨R.toLower.apply_ne_empty ha, R.toLower.apply_ne_empty hb⟩
  · exact ⟨R.toLower.apply_ne_empty hb, R.toLower.apply_ne_empty ha⟩

theorem addEdge_all {edgeByKey : Table (MeshEdge M)} (h : All (EdgeOK I) edgeByKey) {a b : String}
    (ha : a ≠ "") (hb : b ≠ "") (metric : M) (onMyPath : Bool) :
    All (EdgeOK I)
      (addEdge R F I.segmentByPrimary I.knownPrimaries edgeByKey a b metric onMyPath) := by
  unfold addEdge
  simp only
  split
  · exact h
  · rename_i hne
    split
    · exact h
    · rename_i hknown
      push Not at hknown
      split
      · rename_i existing hexisting
        exact h.insert ((h _ _ hexisting).update _ _)
      · have hempty := canonicalPair_ne_empty (R := R) ha hb
        exact h.insert ⟨rfl, canonicalPair_lt hne, hknown.1, hknown.2, hempty.1, hempty.2, rfl⟩

theorem originatorEdgeEndpoints_ne_empty {o : OriginatorEntry} {primaryByMac : Table String}
    {selfMAC a b : String} (h : originatorEdgeEndpoints R o primaryByMac selfMAC = some (a, b)) :
    a ≠ "" ∧ b ≠ "" := by
  unfold originatorEdgeEndpoints at h
  simp only at h
  split at h
  · cases h
  · rename_i horig
    split at h
    · split at h
      · cases h
      · rename_i hself
        push Not at hself
        obtain ⟨rfl, rfl⟩ := Prod.mk.inj (Option.some.inj h)
        exact ⟨resolvePrimary_ne_empty hself.1, resolvePrimary_ne_empty horig⟩
    · rename_i hnext
      push Not at hnext
      obtain ⟨rfl, rfl⟩ := Prod.mk.inj (Option.some.inj h)
      exact ⟨resolvePrimary_ne_empty hnext.1, resolvePrimary_ne_empty horig⟩

theorem redirectThroughLocalGateway_ne_empty {a b selfPrimary : String} (m : Table String)
    (ha : a ≠ "") (hb : b ≠ "") :
    (redirectThroughLocalGateway a b selfPrimary m).1 ≠ "" ∧
      (redirectThroughLocalGateway a b selfPrimary m).2 ≠ "" := by
  have hgw : ∀ remote other, other ≠ "" →
      ((m.lookup remote).filter fun gw => gw ≠ "" ∧ gw ≠ remote).getD other ≠ "" := by
    intro remote other hother
    cases hfilter : (m.lookup remote).filter fun gw => gw ≠ "" ∧ gw ≠ remote with
    | none => exact hother
    | some gw =>
        have hgw := (Option.filter_eq_some_iff.1 hfilter).2
        simp only [decide_eq_true_eq] at hgw
        exact hgw.1
  unfold redirectThroughLocalGateway
  simp only
  split
  · exact ⟨ha, hb⟩
  · split
    · exact ⟨hgw b a ha, hb⟩
    · split
      · exact ⟨ha, hgw a b hb⟩
      · exact ⟨ha, hb⟩

theorem seedEdge_all {edgeByKey : Table (MeshEdge M)} (h : All (EdgeOK I) edgeByKey)
    (o : OriginatorEntry) : All (EdgeOK I) (seedEdge R F I edgeByKey o) := by
  unfold seedEdge
  split
  · exact h
  · rename_i a b hends
    obtain ⟨ha, hb⟩ := originatorEdgeEndpoints_ne_empty hends
    split
    · exact h
    · obtain ⟨ha', hb'⟩ := redirectThroughLocalGateway_ne_empty I.localBlosGwByRemote ha hb
      exact addEdge_all h ha' hb' _ _

theorem upgradeEdgeMetric_all {edgeByKey : Table (MeshEdge M)} (h : All (EdgeOK I) edgeByKey)
    (a b : String) (metric : M) : All (EdgeOK I) (upgradeEdgeMetric R F edgeByKey a b metric) := by
  unfold upgradeEdgeMetric
  split
  · exact h
  · split
    · exact h
    · rename_i existing hexisting
      split
      · exact h.insert ((h _ _ hexisting).update _ _)
      · exact h

theorem layerGossipEdges_all (hnamed : Named I.gossip) {edgeByKey : Table (MeshEdge M)}
    (h : All (EdgeOK I) edgeByKey) : All (EdgeOK I) (layerGossipEdges R F I edgeByKey) := by
  unfold layerGossipEdges
  refine All.foldl (All.foldl h fun m hm entry hentry => ?_) fun m hm entry _ => ?_
  · obtain ⟨hprimary, hneighbors⟩ := hnamed _ _ ((mem_range (R.order_perm _ _)).1 hentry)
    refine hm.foldl fun m hm claim hclaim => ?_
    have hneighbor : claim.1 ≠ "" := hneighbors _ _ ((mem_range (R.order_perm _ _)).1 hclaim)
    unfold gossipEdge
    split
    · exact hm
    · exact addEdge_all hm hprimary hneighbor _ _
  · exact hm.foldl fun m hm claim _ => upgradeEdgeMetric_all hm _ _ _

theorem applyVisNeighbor_all {edgeByKey : Table (MeshEdge M)} (h : All (EdgeOK I) edgeByKey)
    (algorithm : ℤ) (n : VisNeighbor) :
    All (EdgeOK I) (applyVisNeighbor R F I algorithm edgeByKey n) := by
  unfold applyVisNeighbor
  simp only
  split
  · exact h
  · rename_i hmacs
    push Not at hmacs
    split
    · rename_i existing hexisting
      split
      · exact h.insert ((h _ _ hexisting).update _ _)
      · exact h
    · split
      · exact h
      · exact addEdge_all h (resolvePrimary_ne_empty hmacs.1) (resolvePrimary_ne_empty hmacs.2.1) _ _

/-- **The passes over the edges.** Each keeps what `addEdge` sees to. -/
theorem edgeTable_all (hnamed : Named I.gossip) (visDoc : Option VisDoc) :
    All (EdgeOK I) (edgeTable R F I visDoc) := by
  have hseed : All (EdgeOK I) (seedOriginatorEdges R F I ∅) :=
    All.empty.foldl fun m hm o _ => seedEdge_all hm o
  have hgossip := layerGossipEdges_all (R := R) (F := F) hnamed hseed
  unfold edgeTable layerVisEdges
  split
  · exact hgossip
  · refine hgossip.foldl fun m hm v _ => ?_
    exact hm.foldl fun m hm n _ => applyVisNeighbor_all hm _ n

/-- An edge of the list is one of the table. -/
theorem edgeOK_of_mem (hnamed : Named I.gossip) {visDoc : Option VisDoc} {e : MeshEdge M}
    (he : e ∈ buildMeshEdges R F I visDoc) : ∃ key, EdgeOK I key e := by
  rw [buildMeshEdges, (R.sortEdges_perm _).mem_iff] at he
  obtain ⟨⟨key, e⟩, hentry, rfl⟩ := List.mem_map.1 he
  exact ⟨key, edgeTable_all hnamed visDoc key e ((mem_range (R.order_perm _ _)).1 hentry)⟩

/-- Two edges join the same two MACs. -/
def SamePair (e e' : MeshEdge M) : Prop :=
  (e.fromMac = e'.fromMac ∧ e.toMac = e'.toMac) ∨ (e.fromMac = e'.toMac ∧ e.toMac = e'.fromMac)

theorem buildMeshEdges_pairwise (hnamed : Named I.gossip) (visDoc : Option VisDoc) :
    (buildMeshEdges R F I visDoc).Pairwise fun e e' => ¬SamePair e e' := by
  have hsymm : ∀ {e e' : MeshEdge M}, ¬SamePair e e' → ¬SamePair e' e := by
    intro e e' hne hsame
    refine hne ?_
    rcases hsame with ⟨hfrom, hto⟩ | ⟨hfrom, hto⟩
    · exact .inl ⟨hfrom.symm, hto.symm⟩
    · exact .inr ⟨hto.symm, hfrom.symm⟩
  rw [buildMeshEdges, (R.sortEdges_perm _).pairwise_iff hsymm, List.pairwise_map]
  refine (range_pairwise (R.order_perm _ _)).imp_of_mem fun {x y} hx hy hne hsame => hne ?_
  have hx' := edgeTable_all hnamed visDoc _ _ ((mem_range (R.order_perm _ _)).1 hx)
  have hy' := edgeTable_all hnamed visDoc _ _ ((mem_range (R.order_perm _ _)).1 hy)
  rcases hsame with ⟨hfrom, hto⟩ | ⟨hfrom, hto⟩
  · rw [hx'.key_eq, hy'.key_eq, hfrom, hto]
  · -- the endpoints are in order, so a pair is never the other way round
    have hlt := hx'.lt
    rw [hfrom, hto] at hlt
    exact absurd hlt (lt_asymm hy'.lt)

end Edges

/-! ## Nodes -/

section Nodes

variable {M : Type} {R : Runtime M} {I : NodeInputs} {Q : String → Prop}

/-- A node carries the segment of its MAC, and the flag of this node's. -/
structure NodeOK (I : NodeInputs) (n : MeshNode) : Prop where
  segment_eq : n.segment = (I.segmentByPrimary.lookup n.mac).getD .segmentLocal
  isSelf_iff : n.isSelf = true ↔ n.mac = I.selfPrimary ∧ I.selfPrimary ≠ ""

/-- The overlay touches neither MAC, segment nor flag. -/
theorem applyOverlay_same (node : MeshNode) (entry : Option OriginatorEntry) :
    (applyOverlay node entry).mac = node.mac ∧ (applyOverlay node entry).segment = node.segment ∧
      (applyOverlay node entry).isSelf = node.isSelf := by
  unfold applyOverlay
  split
  · exact ⟨rfl, rfl, rfl⟩
  · split <;> exact ⟨rfl, rfl, rfl⟩

theorem visNode_ok (v : VisNode) : NodeOK I (visNode R I v) ∧ (visNode R I v).mac = v.primary := by
  unfold visNode
  have hsame := applyOverlay_same (applySegment
    (.bare v.primary v.secondary (decide (v.primary = I.selfPrimary ∧ I.selfPrimary ≠ "")))
    I.segmentByPrimary I.gatewayByPrimary v.primary) (lookupOrigEntry v I.origByMac)
  obtain ⟨hmac, hsegment, hself⟩ := hsame
  refine ⟨⟨?_, ?_⟩, hmac⟩
  · rw [hsegment, hmac]
    rfl
  · rw [hself, hmac]
    exact decide_eq_true_iff

theorem originatorNode_ok (primary : String) (entry : OriginatorEntry) :
    NodeOK I (originatorNode I primary entry) ∧ (originatorNode I primary entry).mac = primary := by
  unfold originatorNode
  have hsame := applyOverlay_same (applySegment
    (.bare primary [] (decide (primary = I.selfPrimary ∧ I.selfPrimary ≠ "")))
    I.segmentByPrimary I.gatewayByPrimary primary) (some entry)
  obtain ⟨hmac, hsegment, hself⟩ := hsame
  refine ⟨⟨?_, ?_⟩, hmac⟩
  · rw [hsegment, hmac]
    rfl
  · rw [hself, hmac]
    exact decide_eq_true_iff

theorem selfNode_ok (hself : I.selfPrimary ≠ "")
    (hlocal : I.segmentByPrimary.lookup I.selfPrimary = some .segmentLocal) :
    NodeOK I (selfNode I) := by
  refine ⟨?_, ⟨fun _ => ⟨rfl, hself⟩, fun _ => rfl⟩⟩
  change Segment.segmentLocal = (I.segmentByPrimary.lookup I.selfPrimary).getD .segmentLocal
  rw [hlocal]
  rfl

/-- **The node list.** Each node is as its source makes it. -/
theorem buildMeshNodes_all {visNodes : List VisNode} (hvis : ∀ v ∈ visNodes, Q v.primary)
    (hprimary : All (fun _ p => Q p) I.primaryByMac) (horig : All (fun mac _ => Q mac) I.origByMac)
    (hself : I.selfPrimary ≠ "" → Q I.selfPrimary)
    (hlocal : I.selfPrimary ≠ "" →
      I.segmentByPrimary.lookup I.selfPrimary = some .segmentLocal) :
    ∀ n ∈ buildMeshNodes R I visNodes, NodeOK I n ∧ Q n.mac := by
  have hfirst : ∀ n ∈ visNodesOf R I visNodes, NodeOK I n ∧ Q n.mac := by
    intro n hn
    obtain ⟨v, hv, rfl⟩ := List.mem_map.1 hn
    obtain ⟨hok, hmac⟩ := visNode_ok (R := R) (I := I) v
    exact ⟨hok, hmac ▸ hvis v (List.mem_filter.1 hv).1⟩
  have hsecond : ∀ n ∈ routedNodes R I visNodes, NodeOK I n ∧ Q n.mac := by
    refine List.foldlRecOn (motive := fun nodes => ∀ n ∈ nodes, NodeOK I n ∧ Q n.mac) _ _ hfirst
      fun nodes hnodes entry hentry => ?_
    unfold addOriginatorNode
    simp only
    split
    · exact hnodes
    · intro n hn
      rcases List.mem_append.1 hn with hold | hnew
      · exact hnodes n hold
      · obtain rfl := List.mem_singleton.1 hnew
        obtain ⟨hok, hmac⟩ := originatorNode_ok (I := I) (resolvePrimary I.primaryByMac entry.1)
          entry.2
        refine ⟨hok, ?_⟩
        rw [hmac]
        unfold resolvePrimary
        split
        · rename_i hresolves
          exact get_of_all hprimary hresolves
        · exact horig _ _ ((mem_range (R.order_perm _ _)).1 hentry)
  intro n hn
  unfold buildMeshNodes at hn
  simp only at hn
  rw [(R.sortNodes_perm _).mem_iff] at hn
  split at hn
  · rename_i habsent
    rcases List.mem_append.1 hn with hold | hnew
    · exact hsecond n hold
    · obtain rfl := List.mem_singleton.1 hnew
      exact ⟨selfNode_ok habsent.1 (hlocal habsent.1), hself habsent.1⟩
  · exact hsecond n hn

/-- This node is rendered. -/
theorem exists_selfPrimary {visNodes : List VisNode} (hself : I.selfPrimary ≠ "") :
    ∃ n ∈ buildMeshNodes R I visNodes, n.mac = I.selfPrimary := by
  unfold buildMeshNodes
  simp only [(R.sortNodes_perm _).mem_iff]
  split
  · exact ⟨selfNode I, List.mem_append_right _ List.mem_cons_self, rfl⟩
  · rename_i hpresent
    simpa [hself] using hpresent

end Nodes

/-! ## The merge -/

section Merge

variable {M : Type} (R : Runtime M) (F : Metrics M) (S : Snapshot)

/-- The vis primaries are in lower case. -/
def Snapshot.LowerCased : Prop := ∀ v ∈ S.visNodes, R.toLower v.primary = v.primary

/-- What a rendered graph is held to. -/
structure WellFormed (T : MeshTopology M) : Prop where
  endpoints : ∀ e ∈ T.edges, (∃ n ∈ T.nodes, n.mac = e.fromMac) ∧ ∃ n ∈ T.nodes, n.mac = e.toMac
  noLoop : ∀ e ∈ T.edges, e.fromMac ≠ e.toMac
  onePerPair : T.edges.Pairwise fun e e' => ¬SamePair e e'
  blos_iff : ∀ e ∈ T.edges, ∀ n ∈ T.nodes, ∀ n' ∈ T.nodes, n.mac = e.fromMac →
    n'.mac = e.toMac → (e.blos = true ↔ n.segment ≠ n'.segment)
  self_local : ∀ n ∈ T.nodes, n.isSelf = true → n.segment = .segmentLocal

variable {R F S}

theorem lookup_selfPrimary (h : S.selfPrimary R ≠ "") :
    (S.classes R F).1.lookup (S.selfPrimary R) = some .segmentLocal := by
  unfold Snapshot.classes
  simp only [if_pos h]
  exact AList.lookup_insert _

theorem mem_nodes {n : MeshNode} (hn : n ∈ S.nodes R F) :
    ∃ n' ∈ buildMeshNodes R (S.nodeInputs R F) S.visNodes,
      n.mac = n'.mac ∧ n.segment = n'.segment ∧ n.isSelf = n'.isSelf := by
  obtain ⟨n', hn', rfl⟩ := List.mem_map.1 hn
  refine ⟨n', hn', ?_⟩
  unfold applyGatewayFlag applyGossipState
  grind

theorem mem_nodes_of_mem {n' : MeshNode}
    (hn' : n' ∈ buildMeshNodes R (S.nodeInputs R F) S.visNodes) :
    ∃ n ∈ S.nodes R F, n.mac = n'.mac ∧ n.segment = n'.segment ∧ n.isSelf = n'.isSelf := by
  refine ⟨_, List.mem_map.2 ⟨n', hn', rfl⟩, ?_⟩
  unfold applyGatewayFlag applyGossipState
  grind

theorem nodeOK_of_mem (hlower : S.LowerCased R) {n : MeshNode} (hn : n ∈ S.nodes R F) :
    NodeOK (S.nodeInputs R F) n ∧ R.toLower n.mac = n.mac := by
  have hlowered : ∀ mac, R.toLower mac ≠ "" → R.toLower (R.toLower mac) = R.toLower mac :=
    fun mac _ => R.toLower.apply_apply mac
  have hprimary : All (fun _ p => R.toLower p = p) (S.primaryByMac R) :=
    primaryByMac_all S hlower (hlowered _) fun o _ => hlowered o.origMAC
  have horig : All (fun mac _ => R.toLower mac = mac) (originatorsByMac R S.origSnap) :=
    All.empty.foldl fun m hm o _ => hm.insert (R.toLower.apply_apply _)
  obtain ⟨n', hn', hmac, hsegment, hself⟩ := mem_nodes hn
  obtain ⟨hok, hlow⟩ := buildMeshNodes_all (Q := fun mac => R.toLower mac = mac) hlower hprimary
    horig (get_of_all hprimary) lookup_selfPrimary n' hn'
  rw [hmac]
  refine ⟨⟨?_, ?_⟩, hlow⟩
  · rw [hsegment, hmac]
    exact hok.segment_eq
  · rw [hself, hmac]
    exact hok.isSelf_iff

/-- A rendered primary is the MAC of a node. -/
theorem exists_node_of_mem (hlower : S.LowerCased R) {mac : String}
    (h : mac ∈ renderedPrimaries R (S.nodes R F)) : ∃ n ∈ S.nodes R F, n.mac = mac := by
  obtain ⟨n, hn, rfl⟩ := List.mem_map.1 h
  exact ⟨n, hn, (nodeOK_of_mem hlower hn).2.symm⟩

/-- A node and an edge mean the same segment by a MAC. -/
theorem segment_eq_segmentOrDefault (hlower : S.LowerCased R) {n : MeshNode}
    (hn : n ∈ S.nodes R F) (hmac : n.mac ≠ "") :
    n.segment = segmentOrDefault (S.classes R F).1 n.mac := by
  rw [(nodeOK_of_mem hlower hn).1.segment_eq, segmentOrDefault, if_neg hmac]
  rfl

/-- **The merged graph.** Where the vis primaries are in lower case it is
well formed, and this node is rendered in the local segment when its MAC is
known and no vis primary is empty. -/
theorem mergeMeshTopology_wellFormed (hlower : S.LowerCased R) :
    WellFormed (mergeMeshTopology R F S) ∧
      (S.selfMAC R ≠ "" → (∀ v ∈ S.visNodes, v.primary ≠ "") →
        ∃ n ∈ (mergeMeshTopology R F S).nodes, n.isSelf = true ∧ n.segment = .segmentLocal) := by
  have hnamed : Named (S.edgeInputs R F).gossip := gossip_named S
  have hself : ∀ n ∈ S.nodes R F, n.isSelf = true → n.segment = .segmentLocal := by
    intro n hn hflag
    have hok := (nodeOK_of_mem hlower hn).1
    obtain ⟨hmac, hknown⟩ := hok.isSelf_iff.1 hflag
    rw [hok.segment_eq, hmac]
    change ((S.classes R F).1.lookup (S.selfPrimary R)).getD _ = _
    rw [lookup_selfPrimary hknown]
    rfl
  refine ⟨⟨fun e he => ?_, fun e he => ?_, buildMeshEdges_pairwise hnamed _, ?_, hself⟩,
    fun hmac hvis => ?_⟩
  · obtain ⟨key, hok⟩ := edgeOK_of_mem hnamed he
    exact ⟨exists_node_of_mem hlower hok.from_mem, exists_node_of_mem hlower hok.to_mem⟩
  · obtain ⟨key, hok⟩ := edgeOK_of_mem hnamed he
    exact hok.lt.ne
  · intro e he n hn n' hn' hfrom hto
    obtain ⟨key, hok⟩ := edgeOK_of_mem hnamed he
    rw [hok.blos_eq, decide_eq_true_iff, segment_eq_segmentOrDefault hlower hn (hfrom ▸ hok.from_ne),
      segment_eq_segmentOrDefault hlower hn' (hto ▸ hok.to_ne), hfrom, hto]
    exact Iff.rfl
  · -- with no empty vis primary, nothing resolves to an empty MAC
    have hne : All (fun _ p => p ≠ "") (S.primaryByMac R) :=
      primaryByMac_all S hvis id fun o _ => id
    have hprimary : S.selfPrimary R ≠ "" := by
      have hmem := AList.lookup_isSome.2 (selfMAC_mem_primaryByMac S hmac)
      obtain ⟨p, hp⟩ := Option.isSome_iff_exists.1 hmem
      rw [Snapshot.selfPrimary, Table.get, hp]
      exact hne _ _ hp
    obtain ⟨n', hn', hmac'⟩ := exists_selfPrimary (R := R) (I := S.nodeInputs R F) hprimary
    obtain ⟨n, hn, hsame, -, -⟩ := mem_nodes_of_mem hn'
    have hflag : n.isSelf = true :=
      (nodeOK_of_mem hlower hn).1.isSelf_iff.2 ⟨hsame.trans hmac', hprimary⟩
    exact ⟨n, hn, hflag, hself n hn hflag⟩

end Merge

/-- Two nodes with a radio link between them; the second is this one. -/
def twoNodes (first : String) : Snapshot where
  visDoc := some ⟨[⟨first, [], [⟨first, "bb", ""⟩]⟩, ⟨"bb", [], []⟩], 15⟩
  origSnap := ⟨"bb", "", "BATMAN_V", []⟩
  batHosts := none
  neighborsProvider := none
  gatewayMacs := []

theorem mergeMeshTopology_wellFormed_two :
    WellFormed (mergeMeshTopology (.plain Unit) .unknown (twoNodes "aa")) :=
  (mergeMeshTopology_wellFormed (by unfold Snapshot.LowerCased; decide +kernel)).1

/-- The same with a gossip record of the first node, which claims nothing. -/
def twoNodesGossip (first : String) : Snapshot :=
  { twoNodes first with
    neighborsProvider := some
      { lookup mac := if Lowering.ascii mac = "aa" then some ⟨some ⟨15, [], [], none⟩⟩ else none
        lookupByHostname _ := none } }

/-- A vis primary in upper case: the edge names a MAC no node has, and taken
without regard to case it joins a remote node to a local one unflagged. -/
theorem upper_case_primary_breaks :
    (mergeMeshTopology (.plain Unit) .unknown (twoNodesGossip "AA")).edges =
        [⟨"aa", "bb", (), false, false⟩] ∧
      (mergeMeshTopology (.plain Unit) .unknown (twoNodesGossip "AA")).nodes.map
          (fun n => (n.mac, n.segment)) = [("bb", .segmentLocal), ("AA", .segmentRemote)] ∧
      ¬WellFormed (mergeMeshTopology (.plain Unit) .unknown (twoNodesGossip "AA")) := by
  have hedges : (mergeMeshTopology (.plain Unit) .unknown (twoNodesGossip "AA")).edges =
      [⟨"aa", "bb", (), false, false⟩] := by decide +kernel
  have hnodes : (mergeMeshTopology (.plain Unit) .unknown (twoNodesGossip "AA")).nodes.map
      (fun n => (n.mac, n.segment)) = [("bb", .segmentLocal), ("AA", .segmentRemote)] := by
    decide +kernel
  refine ⟨hedges, hnodes, fun hwf => ?_⟩
  obtain ⟨⟨n, hn, hmac⟩, -⟩ := hwf.endpoints _ (hedges ▸ List.mem_cons_self)
  have hmem := List.mem_map_of_mem (f := fun n : MeshNode => (n.mac, n.segment)) hn
  rw [hnodes] at hmem
  simp [hmac] at hmem

end Topology

end OpenManet
