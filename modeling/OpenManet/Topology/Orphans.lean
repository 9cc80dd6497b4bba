import OpenManet.Topology.Chains
/-!
# Routed peers without an edge

Every route is to give its peer an edge. The route's own edge is lost where the
next hop is the peer itself under another MAC, or no node; where it is put
aside for a radio edge of the peer's gateway; and where it is led through a
local gateway. Then the peer hangs on what the other routes, the radio claims
and the vis document draw. So no peer is orphaned exactly where each one that
loses its own edge has a link of another source (`noOrphan_iff`).
-/

namespace OpenManet

namespace Topology

open Table

/-! ## What draws an edge -/

section

variable {M : Type} (R : Runtime M) (F : Metrics M) (I : EdgeInputs M) (visDoc : Option VisDoc)

/-- What a route draws: its ends, where it is not put aside, by way of a local
gateway. -/
def RouteLink (o : OriginatorEntry) (a b : String) : Prop :=
  ∃ ends, originatorEdgeEndpoints R o I.primaryByMac I.selfMAC = some ends ∧
    shouldSuppressSelfPeerEdge ends.1 ends.2 I.selfPrimary I.gatewayByPrimary I.gossip = false ∧
    redirectThroughLocalGateway ends.1 ends.2 I.selfPrimary I.localBlosGwByRemote = (a, b) ∧
    Joins R I.knownPrimaries a b

/-- What a line of the vis document draws. -/
def LineLink (n : VisNeighbor) (a b : String) : Prop :=
  R.toLower n.router ≠ "" ∧ R.toLower n.neighbor ≠ "" ∧
    R.toLower n.router ≠ R.toLower n.neighbor ∧
    resolvePrimary I.primaryByMac (R.toLower n.router) = a ∧
    resolvePrimary I.primaryByMac (R.toLower n.neighbor) = b ∧ Drawn R I a b

/-- A link that one of the passes draws: a route's, a claim by radio, or a line
of the vis document. -/
inductive Link (a b : String) : Prop where
  | route {o : OriginatorEntry} (ho : o ∈ I.origs) (h : RouteLink R I o a b)
  | radio {x : M} (hclaim : (I.gossip.rfOf a).lookup b = some x) (hdrawn : Drawn R I a b)
  | vis {doc : VisDoc} {v : VisNode} {n : VisNeighbor} (hdoc : visDoc = some doc)
      (hv : v ∈ doc.vis) (hn : n ∈ v.neighbors) (h : LineLink R I n a b)

/-- A MAC has a link. -/
def Linked (p : String) : Prop :=
  ∃ a b, Link R I visDoc a b ∧ (p = R.toLower a ∨ p = R.toLower b)

/-- The peer of a route. -/
def peerOf (o : OriginatorEntry) : String := resolvePrimary I.primaryByMac (R.toLower o.origMAC)

/-- The next hop of a route is told apart from its peer. -/
def Relayed (o : OriginatorEntry) : Prop :=
  R.toLower o.nextHopMAC ≠ "" ∧ R.toLower o.nextHopMAC ≠ R.toLower o.origMAC

instance (o : OriginatorEntry) : Decidable (Relayed R o) := inferInstanceAs (Decidable (_ ∧ _))

/-- The primary a route is drawn from: its next hop's, or this node's. -/
def hopOf (o : OriginatorEntry) : String :=
  if Relayed R o then resolvePrimary I.primaryByMac (R.toLower o.nextHopMAC)
  else resolvePrimary I.primaryByMac I.selfMAC

/-- **How a route loses its edge.** -/
inductive Lost (o : OriginatorEntry) : Prop where
  /-- It has no MAC. -/
  | blank (h : R.toLower o.origMAC = "")
  /-- Its next hop is the peer under another MAC. -/
  | looped (hhop : hopOf R I o ≠ I.selfPrimary) (h : R.toLower (hopOf R I o) = peerOf R I o)
  /-- Its next hop is no node. -/
  | unrendered (hhop : hopOf R I o ≠ I.selfPrimary)
      (h : R.toLower (hopOf R I o) ∉ I.knownPrimaries)
  /-- It is put aside for a radio edge of the gateway, which is not drawn. -/
  | suppressed (hhop : hopOf R I o = I.selfPrimary)
      (haside : shouldSuppressSelfPeerEdge (hopOf R I o) (peerOf R I o) I.selfPrimary
        I.gatewayByPrimary I.gossip = true)
      (h : ¬ Drawn R I (I.gatewayByPrimary.get (peerOf R I o)) (peerOf R I o))
  /-- It is led through a gateway that is no node. -/
  | redirected {gw : String} (hhop : hopOf R I o = I.selfPrimary)
      (hkept : shouldSuppressSelfPeerEdge (hopOf R I o) (peerOf R I o) I.selfPrimary
        I.gatewayByPrimary I.gossip = false)
      (hgw : I.localBlosGwByRemote.lookup (peerOf R I o) = some gw) (hknown : gw ≠ "")
      (hne : gw ≠ peerOf R I o) (h : ¬ Joins R I.knownPrimaries gw (peerOf R I o))

end

/-! ## The keys of the table -/

section Keys

variable {M : Type} {R : Runtime M} {F : Metrics M} {I : EdgeInputs M} {visDoc : Option VisDoc}
variable {edgeByKey : Table (MeshEdge M)} {a b k : String} {x : M} {onMyPath : Bool}

theorem mem_addEdge {segments : Table Segment} {known : List String} :
    k ∈ addEdge R F segments known edgeByKey a b x onMyPath ↔
      k ∈ edgeByKey ∨ (Joins R known a b ∧ canonicalKey R a b = k) := by
  rw [← AList.lookup_isSome, lookup_addEdge, ← AList.lookup_isSome]
  split
  · next h => simp [h]
  · next h => simp [h]

/-- The key of a route. -/
theorem mem_seedEdge {o : OriginatorEntry} :
    k ∈ seedEdge R F I edgeByKey o ↔
      k ∈ edgeByKey ∨ ∃ a b, RouteLink R I o a b ∧ canonicalKey R a b = k := by
  unfold seedEdge RouteLink
  cases hends : originatorEdgeEndpoints R o I.primaryByMac I.selfMAC with
  | none => simp
  | some ends =>
    obtain ⟨a, b⟩ := ends
    cases hkept : shouldSuppressSelfPeerEdge a b I.selfPrimary I.gatewayByPrimary I.gossip with
    | true => simp [hkept]
    | false =>
      simp only [hkept, Bool.false_eq_true, if_false, mem_addEdge]
      refine or_congr_right ⟨fun h => ⟨_, _, ⟨(a, b), rfl, hkept, rfl, h.1⟩, h.2⟩, ?_⟩
      rintro ⟨a', b', ⟨ends, hends, -, hthrough, hjoins⟩, hkey⟩
      obtain rfl := Option.some.inj hends
      rw [hthrough]
      exact ⟨hjoins, hkey⟩

/-- **The keys of the routes.** -/
theorem mem_seedOriginatorEdges :
    k ∈ seedOriginatorEdges R F I edgeByKey ↔
      k ∈ edgeByKey ∨ ∃ o ∈ I.origs, ∃ a b, RouteLink R I o a b ∧ canonicalKey R a b = k :=
  mem_foldl_iff fun _ _ _ => mem_seedEdge

/-- **The keys of gossip**: tunnels bring none. -/
theorem mem_layerGossipEdges :
    k ∈ layerGossipEdges R F I edgeByKey ↔ k ∈ edgeByKey ∨ ∃ a b x,
      (I.gossip.rfOf a).lookup b = some x ∧ Drawn R I a b ∧ canonicalKey R a b = k := by
  have hradio : k ∈ layerRadioEdges R F I edgeByKey ↔ k ∈ edgeByKey ∨ ∃ a b x,
      (I.gossip.rfOf a).lookup b = some x ∧ Drawn R I a b ∧ canonicalKey R a b = k := by
    unfold layerRadioEdges
    rw [mem_foldl_iff (W := fun c => Drawn R I c.1 c.2.1 ∧ canonicalKey R c.1 c.2.1 = k)]
    · refine or_congr_right ⟨?_, ?_⟩
      · rintro ⟨⟨a, b, x⟩, hc, hdrawn⟩
        exact ⟨a, b, x, mem_claims_iff.1 hc, hdrawn⟩
      · rintro ⟨a, b, x, hclaim, hdrawn⟩
        exact ⟨(a, b, x), mem_claims_iff.2 hclaim, hdrawn⟩
    · intro m c _
      rw [← AList.lookup_isSome, lookup_gossipEdge, ← AList.lookup_isSome]
      split
      · next h => simp [h]
      · next h => simp [h]
  rw [layerGossipEdges_eq, ← hradio, mem_foldl_iff (W := fun _ => False)]
  · simp
  · intro m c _
    rw [or_false]
    refine mem_iff_of_lookup ?_
    rw [lookup_upgradeEdgeMetric]
    split
    · exact Option.isSome_map
    · rfl

/-- The key of a line of the vis document. -/
theorem mem_applyVisNeighbor {algorithm : ℤ} {n : VisNeighbor} :
    k ∈ applyVisNeighbor R F I algorithm edgeByKey n ↔
      k ∈ edgeByKey ∨ ∃ a b, LineLink R I n a b ∧ canonicalKey R a b = k := by
  unfold applyVisNeighbor LineLink
  simp only
  generalize resolvePrimary I.primaryByMac (R.toLower n.router) = a
  generalize resolvePrimary I.primaryByMac (R.toLower n.neighbor) = b
  by_cases hmacs : R.toLower n.router = "" ∨ R.toLower n.neighbor = "" ∨
      R.toLower n.router = R.toLower n.neighbor
  · rw [if_pos hmacs]
    refine ⟨.inl, fun h => h.elim id ?_⟩
    rintro ⟨a', b', ⟨hrouter, hneighbor, hne, -⟩, -⟩
    rcases hmacs with h | h | h
    · exact absurd h hrouter
    · exact absurd h hneighbor
    · exact absurd h hne
  · rw [if_neg hmacs]
    push Not at hmacs
    obtain ⟨hrouter, hneighbor, hne⟩ := hmacs
    cases hlookup : edgeByKey.lookup (canonicalKey R a b) with
    | some existing =>
      have hmem : canonicalKey R a b ∈ edgeByKey := AList.lookup_isSome.1 (by rw [hlookup]; rfl)
      -- the edge is there already
      have hsame : k ∈ (if isBetterMetric F (F.parse n.metric) existing.metric algorithm then
          edgeByKey.insert (canonicalKey R a b) { existing with metric := F.parse n.metric }
          else edgeByKey) ↔ k ∈ edgeByKey := by
        split
        · rw [AList.mem_insert]
          exact or_iff_right_of_imp fun hk => hk ▸ hmem
        · exact Iff.rfl
      rw [hsame]
      refine ⟨.inl, fun h => h.elim id ?_⟩
      rintro ⟨a', b', ⟨-, -, -, rfl, rfl, -⟩, rfl⟩
      exact hmem
    | none =>
      simp only
      by_cases hsegment : segmentOrDefault I.segmentByPrimary a = segmentOrDefault I.segmentByPrimary b
      · rw [if_neg (not_not.2 hsegment), mem_addEdge]
        refine or_congr_right ⟨?_, ?_⟩
        · rintro ⟨hjoins, hkey⟩
          exact ⟨a, b, ⟨hrouter, hneighbor, hne, rfl, rfl, hsegment, hjoins⟩, hkey⟩
        · rintro ⟨a', b', ⟨-, -, -, rfl, rfl, -, hjoins⟩, hkey⟩
          exact ⟨hjoins, hkey⟩
      · rw [if_pos hsegment]
        refine ⟨.inl, fun h => h.elim id ?_⟩
        rintro ⟨a', b', ⟨-, -, -, rfl, rfl, hsame, -⟩, -⟩
        exact absurd hsame hsegment

/-- **The keys of the vis document.** -/
theorem mem_layerVisEdges :
    k ∈ layerVisEdges R F I visDoc edgeByKey ↔ k ∈ edgeByKey ∨ ∃ doc, visDoc = some doc ∧
      ∃ v ∈ doc.vis, ∃ n ∈ v.neighbors, ∃ a b, LineLink R I n a b ∧ canonicalKey R a b = k := by
  unfold layerVisEdges
  cases visDoc with
  | none => simp
  | some doc =>
    have hlines : ∀ (m : Table (MeshEdge M)) (v : VisNode),
        k ∈ v.neighbors.foldl (applyVisNeighbor R F I doc.algorithm) m ↔ k ∈ m ∨
          ∃ n ∈ v.neighbors, ∃ a b, LineLink R I n a b ∧ canonicalKey R a b = k :=
      fun m v => mem_foldl_iff fun _ _ _ => mem_applyVisNeighbor
    refine (mem_foldl_iff fun m v _ => hlines m v).trans (or_congr_right ?_)
    exact ⟨fun h => ⟨doc, rfl, h⟩, fun ⟨_, hdoc, h⟩ => Option.some.inj hdoc ▸ h⟩

/-- **The keys of the table** are those of the links. -/
theorem mem_edgeTable :
    k ∈ edgeTable R F I visDoc ↔ ∃ a b, Link R I visDoc a b ∧ canonicalKey R a b = k := by
  unfold edgeTable
  rw [mem_layerVisEdges, mem_layerGossipEdges, mem_seedOriginatorEdges]
  constructor
  · rintro (((hnone | ⟨o, ho, a, b, hlink, hkey⟩) | ⟨a, b, x, hclaim, hdrawn, hkey⟩) |
      ⟨doc, hdoc, v, hv, n, hn, a, b, hlink, hkey⟩)
    · exact absurd hnone (AList.notMem_empty k)
    · exact ⟨a, b, .route ho hlink, hkey⟩
    · exact ⟨a, b, .radio hclaim hdrawn, hkey⟩
    · exact ⟨a, b, .vis hdoc hv hn hlink, hkey⟩
  · rintro ⟨a, b, hlink, hkey⟩
    cases hlink with
    | route ho h => exact .inl (.inl (.inr ⟨_, ho, a, b, h, hkey⟩))
    | radio hclaim hdrawn => exact .inl (.inr ⟨a, b, _, hclaim, hdrawn, hkey⟩)
    | vis hdoc hv hn h => exact .inr ⟨_, hdoc, _, hv, _, hn, a, b, h, hkey⟩

/-! ## From keys to edges -/

/-- Where no MAC has the bar in it, a key is of one pair. -/
theorem pairKey_injective {pair pair' : String × String} (hfrom : '|' ∉ pair.1.toList)
    (hto : '|' ∉ pair.2.toList) (h : pairKey pair = pairKey pair') : pair = pair' := by
  have hlist := congrArg String.toList h
  unfold pairKey at hlist
  simp only [String.toList_append, List.append_assoc] at hlist
  have hbar : "|".toList = ['|'] := by decide
  rw [hbar, List.singleton_append, List.singleton_append,
    List.append_cons_inj_of_notMem hfrom hto] at hlist
  exact Prod.ext (String.toList_inj.1 hlist.1) (String.toList_inj.1 hlist.2.2)

theorem canonicalPair_cases (a b : String) :
    canonicalPair R a b = (R.toLower a, R.toLower b) ∨
      canonicalPair R a b = (R.toLower b, R.toLower a) := by
  unfold canonicalPair
  split
  · exact .inl rfl
  · exact .inr rfl

/-- **A MAC has an edge** where it has a link. -/
theorem exists_edge_iff (hnamed : Named I.gossip)
    (hbar : ∀ mac ∈ I.knownPrimaries, '|' ∉ mac.toList) {p : String} :
    (∃ e ∈ buildMeshEdges R F I visDoc, e.fromMac = p ∨ e.toMac = p) ↔ Linked R I visDoc p := by
  have hentry : ∀ {k e}, (edgeTable R F I visDoc).lookup k = some e →
      ∀ {a b}, canonicalKey R a b = k → (canonicalPair R a b) = (e.fromMac, e.toMac) := by
    intro k e hlookup a b hkey
    have hok := edgeTable_all hnamed visDoc k e hlookup
    exact (pairKey_injective (hbar _ hok.from_mem) (hbar _ hok.to_mem)
      (hok.key_eq.symm.trans hkey.symm)).symm
  have hends : ∀ {a b : String} {e : MeshEdge M}, canonicalPair R a b = (e.fromMac, e.toMac) →
      ((e.fromMac = p ∨ e.toMac = p) ↔ p = R.toLower a ∨ p = R.toLower b) := by
    intro a b e hpair
    rcases canonicalPair_cases (R := R) a b with h | h <;> rw [h] at hpair <;>
      obtain ⟨hfrom, hto⟩ := Prod.mk.inj hpair <;> rw [← hfrom, ← hto, eq_comm (a := p),
        eq_comm (a := p)]
    exact or_comm
  constructor
  · rintro ⟨e, he, hp⟩
    rw [buildMeshEdges, (R.sortEdges_perm _).mem_iff] at he
    obtain ⟨⟨k, e⟩, hmem, rfl⟩ := List.mem_map.1 he
    have hlookup := (mem_range (R.order_perm _ _)).1 hmem
    obtain ⟨a, b, hlink, hkey⟩ := mem_edgeTable.1 (AList.lookup_isSome.1
      (by rw [hlookup]; rfl : ((edgeTable R F I visDoc).lookup k).isSome))
    exact ⟨a, b, hlink, (hends (hentry hlookup hkey)).1 hp⟩
  · rintro ⟨a, b, hlink, hp⟩
    obtain ⟨e, hlookup⟩ := Option.isSome_iff_exists.1 (AList.lookup_isSome.2
      (mem_edgeTable.2 ⟨a, b, hlink, rfl⟩ : canonicalKey R a b ∈ edgeTable R F I visDoc))
    refine ⟨e, ?_, (hends (hentry hlookup rfl)).2 hp⟩
    rw [buildMeshEdges, (R.sortEdges_perm _).mem_iff]
    exact List.mem_map.2 ⟨_, (mem_range (R.order_perm _ _)).2 hlookup, rfl⟩

end Keys

/-! ## A route's own edge -/

section Own

variable {M : Type} {R : Runtime M} {F : Metrics M} {I : EdgeInputs M} {visDoc : Option VisDoc}
variable {o : OriginatorEntry} {a b : String}

/-- The ends of a route with a MAC: its hop and its peer. -/
theorem originatorEdgeEndpoints_eq (horig : R.toLower o.origMAC ≠ "") (hmac : I.selfMAC ≠ "")
    (hne : I.selfMAC ≠ R.toLower o.origMAC) :
    originatorEdgeEndpoints R o I.primaryByMac I.selfMAC = some (hopOf R I o, peerOf R I o) := by
  unfold originatorEdgeEndpoints hopOf peerOf
  simp only
  rw [if_neg horig]
  by_cases hrelayed : Relayed R o
  · rw [if_neg (not_or.2 hrelayed), if_pos hrelayed]
  · have hdirect : R.toLower o.nextHopMAC = "" ∨ R.toLower o.nextHopMAC = R.toLower o.origMAC := by
      by_contra hnot
      exact hrelayed (not_or.1 hnot)
    rw [if_pos hdirect, if_neg (not_or.2 ⟨hmac, hne⟩), if_neg hrelayed]

/-- Edges that do not touch this node are left alone. -/
theorem shouldSuppressSelfPeerEdge_of_ne (ha : a ≠ I.selfPrimary) (hb : b ≠ I.selfPrimary) :
    shouldSuppressSelfPeerEdge a b I.selfPrimary I.gatewayByPrimary I.gossip = false := by
  unfold shouldSuppressSelfPeerEdge
  simp only
  rw [if_neg ha.symm, if_neg hb.symm, ite_self]

theorem redirectThroughLocalGateway_of_ne (ha : a ≠ I.selfPrimary) (hb : b ≠ I.selfPrimary) :
    redirectThroughLocalGateway a b I.selfPrimary I.localBlosGwByRemote = (a, b) := by
  unfold redirectThroughLocalGateway
  simp only
  rw [if_neg ha, if_neg hb, ite_self]

/-- An edge that is put aside is claimed by the peer's gateway. -/
theorem claimed_of_suppressed (hself : I.selfPrimary ≠ "")
    (h : shouldSuppressSelfPeerEdge I.selfPrimary b I.selfPrimary I.gatewayByPrimary I.gossip =
      true) : ∃ x, (I.gossip.rfOf (I.gatewayByPrimary.get b)).lookup b = some x := by
  unfold shouldSuppressSelfPeerEdge at h
  simp only at h
  rw [if_neg hself, if_true] at h
  obtain ⟨-, -, hclaim⟩ := of_decide_eq_true h
  exact Option.isSome_iff_exists.1 (AList.lookup_isSome.2 hclaim)

/-- **A route has its edge**, or lost it. -/
theorem linked_of_not_lost (ho : o ∈ I.origs) (hself : I.selfPrimary ≠ "")
    (hresolved : resolvePrimary I.primaryByMac I.selfMAC = I.selfPrimary) (hmac : I.selfMAC ≠ "")
    (hselfKnown : I.selfPrimary ∈ I.knownPrimaries)
    (hselfLower : R.toLower I.selfPrimary = I.selfPrimary)
    (hpeerKnown : peerOf R I o ∈ I.knownPrimaries)
    (hpeerLower : R.toLower (peerOf R I o) = peerOf R I o) (hpeer : peerOf R I o ≠ I.selfPrimary)
    (hkept : ¬ Lost R I o) : Linked R I visDoc (peerOf R I o) := by
  have hjoins : ∀ {a}, R.toLower a ∈ I.knownPrimaries → R.toLower a ≠ peerOf R I o →
      Joins R I.knownPrimaries a (peerOf R I o) := by
    intro a ha hne
    unfold Joins
    rcases canonicalPair_cases (R := R) a (peerOf R I o) with h | h <;> rw [h, hpeerLower]
    · exact ⟨hne, ha, hpeerKnown⟩
    · exact ⟨hne.symm, hpeerKnown, ha⟩
  have hends : originatorEdgeEndpoints R o I.primaryByMac I.selfMAC =
      some (hopOf R I o, peerOf R I o) := by
    refine originatorEdgeEndpoints_eq (fun h => hkept (.blank h)) hmac fun h => hpeer ?_
    rw [peerOf, ← h, hresolved]
  by_cases hhop : hopOf R I o = I.selfPrimary
  · -- the route starts here
    cases haside : shouldSuppressSelfPeerEdge (hopOf R I o) (peerOf R I o) I.selfPrimary
      I.gatewayByPrimary I.gossip with
    | true =>
      obtain ⟨x, hclaim⟩ := claimed_of_suppressed hself (by rwa [hhop] at haside)
      have hdrawn : Drawn R I (I.gatewayByPrimary.get (peerOf R I o)) (peerOf R I o) := by
        by_contra hnot
        exact hkept (.suppressed hhop haside hnot)
      exact ⟨_, _, .radio hclaim hdrawn, .inr hpeerLower.symm⟩
    | false =>
      have hthrough : redirectThroughLocalGateway (hopOf R I o) (peerOf R I o) I.selfPrimary
          I.localBlosGwByRemote = (((I.localBlosGwByRemote.lookup (peerOf R I o)).filter
            fun gw => gw ≠ "" ∧ gw ≠ peerOf R I o).getD (hopOf R I o), peerOf R I o) := by
        unfold redirectThroughLocalGateway
        simp only
        rw [if_neg hself, if_pos hhop]
      refine ⟨_, _, .route ho ⟨_, hends, haside, hthrough, ?_⟩, .inr hpeerLower.symm⟩
      cases hgw : (I.localBlosGwByRemote.lookup (peerOf R I o)).filter
          fun gw => gw ≠ "" ∧ gw ≠ peerOf R I o with
      | none =>
        rw [Option.getD_none, hhop]
        exact hjoins (by rwa [hselfLower]) (by rw [hselfLower]; exact hpeer.symm)
      | some gw =>
        obtain ⟨hlookup, hgood⟩ := Option.filter_eq_some_iff.1 hgw
        obtain ⟨hknown, hne⟩ := of_decide_eq_true hgood
        rw [Option.getD_some]
        by_contra hnot
        exact hkept (.redirected hhop haside hlookup hknown hne hnot)
  · -- the route is relayed
    refine ⟨_, _, .route ho ⟨_, hends, shouldSuppressSelfPeerEdge_of_ne hhop hpeer,
      redirectThroughLocalGateway_of_ne hhop hpeer, hjoins ?_ ?_⟩, .inr hpeerLower.symm⟩
    · by_contra hnot
      exact hkept (.unrendered hhop hnot)
    · intro hloop
      exact hkept (.looped hhop hloop)

end Own

/-! ## When no peer is orphaned -/

section

variable {M : Type} (R : Runtime M) (F : Metrics M) (S : Snapshot)

/-- MACs as the parsers deliver them: those of the vis document are there and
lower-cased, and none has a bar in it. -/
structure Snapshot.Macs : Prop where
  lowered : S.LowerCased R
  named : ∀ v ∈ S.visNodes, v.primary ≠ ""
  vis : ∀ v ∈ S.visNodes, '|' ∉ v.primary.toList
  self : '|' ∉ (S.selfMAC R).toList
  originator : ∀ o ∈ S.origSnap.originators, '|' ∉ (R.toLower o.origMAC).toList

/-- **No routed peer is orphaned**: whose node is rendered, and is not this
one, has an edge. -/
def NoOrphan : Prop :=
  ∀ o ∈ S.origSnap.originators,
    (∃ n ∈ (mergeMeshTopology R F S).nodes,
      n.mac = resolvePrimary (S.primaryByMac R) (R.toLower o.origMAC) ∧ n.isSelf = false) →
    ∃ e ∈ (mergeMeshTopology R F S).edges,
      e.fromMac = resolvePrimary (S.primaryByMac R) (R.toLower o.origMAC) ∨
        e.toMac = resolvePrimary (S.primaryByMac R) (R.toLower o.origMAC)

/-- **The lost are found**: each peer whose route lost its edge has a link of
another source. -/
def LostLinked : Prop :=
  ∀ o ∈ S.origSnap.originators, peerOf R (S.edgeInputs R F) o ≠ S.selfPrimary R →
    Lost R (S.edgeInputs R F) o →
      Linked R (S.edgeInputs R F) S.visDoc (peerOf R (S.edgeInputs R F) o)

end

section

variable {M : Type} {R : Runtime M} {F : Metrics M} {S : Snapshot}

/-- What MACs resolve to is lower-cased and has no bar in it. -/
theorem Snapshot.Macs.primaryByMac (hmacs : S.Macs R) :
    All (fun _ p => R.toLower p = p ∧ '|' ∉ p.toList) (S.primaryByMac R) :=
  primaryByMac_all S (fun v hv => ⟨hmacs.lowered v hv, hmacs.vis v hv⟩)
    (fun _ => ⟨R.toLower.apply_apply _, hmacs.self⟩)
    fun o ho _ => ⟨R.toLower.apply_apply _, hmacs.originator o ho⟩

/-- No rendered MAC has a bar in it. -/
theorem Snapshot.Macs.known (hmacs : S.Macs R) :
    ∀ mac ∈ renderedPrimaries R (S.nodes R F), '|' ∉ mac.toList := by
  have horig : All (fun mac _ => R.toLower mac = mac ∧ '|' ∉ mac.toList)
      (originatorsByMac R S.origSnap) := by
    refine All.empty.foldl fun m hm o ho => hm.insert ?_
    exact ⟨R.toLower.apply_apply _, hmacs.originator o ho⟩
  intro mac hmac
  obtain ⟨n, hn, rfl⟩ := List.mem_map.1 hmac
  obtain ⟨n', hn', hsame, -, -⟩ := mem_nodes hn
  obtain ⟨-, hlower, hbar⟩ := buildMeshNodes_all (I := S.nodeInputs R F)
    (Q := fun mac => R.toLower mac = mac ∧ '|' ∉ mac.toList)
    (fun v hv => ⟨hmacs.lowered v hv, hmacs.vis v hv⟩) hmacs.primaryByMac horig
    (get_of_all hmacs.primaryByMac) lookup_selfPrimary n' hn'
  rw [hsame, hlower]
  exact hbar

/-- This node's MAC resolves to its primary. -/
theorem Snapshot.Macs.selfPrimary (hmacs : S.Macs R) (hself : S.selfMAC R ≠ "") :
    S.selfPrimary R ≠ "" ∧ resolvePrimary (S.primaryByMac R) (S.selfMAC R) = S.selfPrimary R := by
  obtain ⟨p, hp⟩ := Option.isSome_iff_exists.1
    (AList.lookup_isSome.2 (selfMAC_mem_primaryByMac S hself))
  have hget : S.selfPrimary R = p := by rw [Snapshot.selfPrimary, Table.get, hp, Option.getD_some]
  have hne : p ≠ "" := primaryByMac_ne_empty hmacs.named _ p hp
  rw [resolvePrimary_eq_getD hmacs.named, hp, hget]
  exact ⟨hne, rfl⟩

theorem Snapshot.Macs.peer_lower (hmacs : S.Macs R) (o : OriginatorEntry) :
    R.toLower (peerOf R (S.edgeInputs R F) o) = peerOf R (S.edgeInputs R F) o := by
  change R.toLower (resolvePrimary (S.primaryByMac R) (R.toLower o.origMAC)) =
    resolvePrimary (S.primaryByMac R) (R.toLower o.origMAC)
  rw [resolvePrimary_eq_getD hmacs.named]
  cases hlookup : (S.primaryByMac R).lookup (R.toLower o.origMAC) with
  | none => exact R.toLower.apply_apply _
  | some p => exact (hmacs.primaryByMac _ p hlookup).1

end

/-- **When no peer is orphaned**: exactly where each peer whose route lost its
edge has a link of another source. -/
theorem noOrphan_iff {M : Type} (R : Runtime M) (F : Metrics M) (S : Snapshot) (hmacs : S.Macs R)
    (hself : S.selfMAC R ≠ "") : NoOrphan R F S ↔ LostLinked R F S := by
  obtain ⟨hprimary, hresolved⟩ := hmacs.selfPrimary hself
  have hedges : ∀ {p}, (∃ e ∈ (mergeMeshTopology R F S).edges, e.fromMac = p ∨ e.toMac = p) ↔
      Linked R (S.edgeInputs R F) S.visDoc p := exists_edge_iff (gossip_named S) hmacs.known
  have hflag : ∀ {n : MeshNode}, n ∈ S.nodes R F → (n.isSelf = false ↔ n.mac ≠ S.selfPrimary R) := by
    intro n hn
    rw [← Bool.not_eq_true, (nodeOK_of_mem hmacs.lowered hn).1.isSelf_iff]
    exact not_congr (and_iff_left hprimary)
  constructor
  · intro h o ho hpeer _
    obtain ⟨n, hn, hmac⟩ := exists_node_of_originator (F := F) ho
    exact hedges.1 (h o ho ⟨n, hn, hmac, (hflag hn).2 (hmac ▸ hpeer)⟩)
  · rintro h o ho ⟨n, hn, hmac, hother⟩
    have hpeer : peerOf R (S.edgeInputs R F) o ≠ S.selfPrimary R := by
      intro heq
      exact (hflag hn).1 hother (hmac.trans heq)
    refine hedges.2 ?_
    by_cases hlost : Lost R (S.edgeInputs R F) o
    · exact h o ho hpeer hlost
    · obtain ⟨n', hn', hmac'⟩ : ∃ n' ∈ S.nodes R F, n'.mac = S.selfPrimary R := by
        refine exists_mem_nodes.2 (List.mem_append_right _ ?_)
        rw [if_pos hprimary]
        exact List.mem_singleton_self _
      have hselfLower : R.toLower (S.selfPrimary R) = S.selfPrimary R :=
        hmac' ▸ (nodeOK_of_mem hmacs.lowered hn').2
      refine linked_of_not_lost ho hprimary hresolved hself ?_ hselfLower ?_ (hmacs.peer_lower o)
        hpeer hlost
      · exact List.mem_map.2 ⟨n', hn', (congrArg R.toLower hmac').trans hselfLower⟩
      · refine List.mem_map.2 ⟨n, hn, ?_⟩
        rw [hmac]
        exact hmacs.peer_lower o

/-- A direct neighbour, and the radio of it that this node reaches it by. -/
def secondRadio : Snapshot where
  visDoc := some ⟨[⟨"aa", [], []⟩, ⟨"bb", ["bc"], []⟩], 15⟩
  origSnap := ⟨"aa", "", "BATMAN_V", [⟨"bb", "", "bc", "wlan0", 1⟩]⟩
  batHosts := none
  neighborsProvider := none
  gatewayMacs := []

theorem macs_secondRadio : secondRadio.Macs (.plain Unit) where
  lowered := by unfold Snapshot.LowerCased; decide +kernel
  named := by decide
  vis := by decide
  self := by decide +kernel
  originator := by decide +kernel

theorem noOrphan_iff_secondRadio :
    NoOrphan (.plain Unit) .unknown secondRadio ↔ LostLinked (.plain Unit) .unknown secondRadio :=
  noOrphan_iff _ _ _ macs_secondRadio (by decide +kernel)

/-- **A direct neighbour without an edge**: its next hop is itself under another
MAC. -/
theorem second_radio_orphaned : ¬ NoOrphan (.plain Unit) .unknown secondRadio := by
  intro h
  have hedges : (mergeMeshTopology (.plain Unit) .unknown secondRadio).edges = [] := by
    decide +kernel
  have hnode : ∃ n ∈ (mergeMeshTopology (.plain Unit) .unknown secondRadio).nodes,
      n.mac = resolvePrimary (secondRadio.primaryByMac (.plain Unit))
        ((Runtime.plain Unit).toLower "bb") ∧ n.isSelf = false := by decide +kernel
  obtain ⟨e, he, -⟩ := h ⟨"bb", "", "bc", "wlan0", 1⟩ (by decide) hnode
  rw [hedges] at he
  exact absurd he (by simp)

end Topology

end OpenManet
