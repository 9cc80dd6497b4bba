import OpenManet.Topology.Gateways
/-!
# Segments and radio connectivity

A component of the search is what radio claims join, and the labels read the
components: a primary with a record is local exactly when it is joined to this
node. The gateways follow them where a component has one to pick, and then all
its members have that one. A component with none to pick falls back, member by
member, to the originator table, which knows nothing of components: there its
members may be sent through different gateways, or through one outside
(`rfConnectivity_iff`).
-/

namespace OpenManet

namespace Topology

open Table Relation

section

variable {M : Type} {R : Runtime M} {F : Metrics M} {gossip : GossipView M}
variable {selfPrimary selfMAC : String} {origSnap : OriginatorTopology}
variable {primaryByMac : Table String}

/-! ## Views -/

/-- A view counts its records. -/
theorem buildGossipView_coverage {provider : Option MeshNeighborsProvider} {visNodes : List VisNode}
    {aliases hostnames : Table String}
    (h : (buildGossipView R F provider visNodes aliases hostnames).coverage = 0) :
    (buildGossipView R F provider visNodes aliases hostnames).rfByPrimary = ∅ := by
  revert h
  unfold buildGossipView
  cases provider with
  | none => exact fun _ => rfl
  | some provider =>
    refine List.foldlRecOn (motive := fun view : GossipView M =>
      view.coverage = 0 → view.rfByPrimary = ∅) _ _
      (fun _ => rfl) fun view h v _ => ?_
    unfold viewEntry
    simp only
    split_ifs
    · exact h
    · cases findPayload provider hostnames (resolvePrimary aliases v.primary) with
      | none => exact h
      | some payload => exact fun hzero => absurd hzero (Nat.succ_ne_zero _)

theorem buildGossipView_named {provider : Option MeshNeighborsProvider} {visNodes : List VisNode}
    {aliases hostnames : Table String} :
    Named (buildGossipView R F provider visNodes aliases hostnames) := by
  unfold buildGossipView
  cases provider with
  | none => exact All.empty
  | some provider =>
    exact List.foldlRecOn (motive := Named) _ _ All.empty fun view h v _ => viewEntry_named h v

/-! ## Reading the labels -/

/-- An entry of a table with a fallback: its own, or else the fallback's. -/
theorem lookup_withFallback {α : Type} (m fallback : Table α) (k : String) :
    (withFallback m fallback).lookup k = (m.lookup k).or (fallback.lookup k) := by
  unfold withFallback
  rw [lookup_foldl_or (g := fallback.lookup) fun m p => ?_]
  rotate_left
  · cases hp : fallback.lookup p with
    | none =>
      by_cases hk : k = p
      · subst hk
        simp [hp]
      · simp [hk]
    | some v =>
      simp only
      by_cases hmem : p ∈ m
      · rw [if_pos hmem]
        by_cases hk : k = p
        · subst hk
          obtain ⟨w, hw⟩ := Option.isSome_iff_exists.1 (AList.lookup_isSome.2 hmem)
          simp [hw]
        · simp [hk]
      · rw [if_neg hmem, lookup_insert_eq]
        by_cases hk : k = p
        · subst hk
          simp [AList.lookup_eq_none.2 hmem, hp]
        · simp [hk]
  by_cases hk : k ∈ fallback.keys
  · rw [if_pos hk]
  · rw [if_neg hk, AList.lookup_eq_none.2 (mt AList.mem_keys.1 hk)]

/-- The label the components give a primary. -/
def componentLabel (R : Runtime M) (gossip : GossipView M) (selfPrimary primary : String) :
    Segment :=
  if ((componentsOf R gossip).1.lookup selfPrimary).isSome ∧
      (componentsOf R gossip).1.lookup primary = (componentsOf R gossip).1.lookup selfPrimary
  then .segmentLocal else .segmentRemote

/-- The labels before the fallback. -/
def componentLabels (R : Runtime M) (gossip : GossipView M) (selfPrimary : String) :
    Table Segment :=
  let labels := gossip.rfByPrimary.keys.foldl (fun segments primary =>
    segments.insert primary (componentLabel R gossip selfPrimary primary)) ∅
  if selfPrimary ≠ "" then labels.insert selfPrimary .segmentLocal else labels

/-- Labels and gateways: the components' word, and for what they leave out
the originator table's. -/
theorem classifyNodesWithGossip_eq (hcoverage : gossip.coverage ≠ 0) :
    classifyNodesWithGossip R origSnap primaryByMac selfMAC selfPrimary gossip =
      (withFallback (componentLabels R gossip selfPrimary)
          (classifyNodesHeuristic R origSnap primaryByMac selfMAC).1,
        withFallback (componentGateways R gossip selfPrimary)
          (classifyNodesHeuristic R origSnap primaryByMac selfMAC).2) := by
  unfold classifyNodesWithGossip
  rw [if_neg hcoverage]
  rfl

/-- **A primary with a record is local** exactly when it is this node or joined
to it. -/
theorem lookup_segments (hcoverage : gossip.coverage ≠ 0) {p : String}
    (hp : p ∈ gossip.rfByPrimary) (hne : p ≠ "") :
    (classifyNodesWithGossip R origSnap primaryByMac selfMAC selfPrimary gossip).1.lookup p =
        some .segmentLocal ↔ p = selfPrimary ∨ Meshed gossip selfPrimary p := by
  have hlabel : (componentLabels R gossip selfPrimary).lookup p =
      some (if p = selfPrimary then .segmentLocal else componentLabel R gossip selfPrimary p) := by
    unfold componentLabels
    have hlookup := lookup_foldl_label (componentLabel R gossip selfPrimary)
      gossip.rfByPrimary.keys ∅ p
    rw [if_pos (AList.mem_keys.1 hp)] at hlookup
    by_cases hself : selfPrimary = ""
    · rw [if_neg (not_not.2 hself), if_neg (hself ▸ hne)]
      exact hlookup
    · rw [if_pos hself, lookup_insert_eq]
      by_cases hp' : p = selfPrimary
      · rw [if_pos hp', if_pos hp']
      · rw [if_neg hp', if_neg hp']
        exact hlookup
  have hlocal := numbered_local_iff (R := R) selfPrimary hp
  rw [classifyNodesWithGossip_eq hcoverage, lookup_withFallback, hlabel, Option.some_or,
    Option.some.injEq]
  by_cases hp' : p = selfPrimary
  · rw [if_pos hp']
    exact iff_of_true rfl (.inl hp')
  · rw [if_neg hp', componentLabel, ← hlocal]
    split_ifs with hnumbered
    · exact iff_of_true rfl (.inr hnumbered)
    · exact iff_of_false not_false fun h => h.elim hp' hnumbered

/-! ## The gateway of a remote component -/

variable {ms : List String}

/-- No member has a tunnel to speak of: none claims a neighbour by tunnel,
and none's routes lead over tunnels to this side. -/
def Untunneled (R : Runtime M) (gossip : GossipView M) (selfPrimary : String) (ms : List String) :
    Prop :=
  ∀ m ∈ ms, Chained gossip (localMembersOf R gossip selfPrimary) m = false ∧
    Tunneled gossip m = false

theorem mem_of_find?_or {p q r : String → Bool} {m : String}
    (h : ((ms.find? p).or (ms.find? q)).or (ms.find? r) = some m) : m ∈ ms := by
  rcases Option.or_eq_some_iff.1 h with h | ⟨-, h⟩
  · rcases Option.or_eq_some_iff.1 h with h | ⟨-, h⟩
    · exact List.mem_of_find?_eq_some h
    · exact List.mem_of_find?_eq_some h
  · exact List.mem_of_find?_eq_some h

theorem pick_mem {localMembers : List String}
    (h : pickComponentGateway ms localMembers gossip ≠ "") :
    pickComponentGateway ms localMembers gossip ∈ ms := by
  rw [pickComponentGateway_eq] at h ⊢
  cases hpick : ((ms.find? (Direct gossip localMembers)).or
      (ms.find? (Chained gossip localMembers))).or (ms.find? (Tunneled gossip)) with
  | none =>
    rw [hpick] at h
    exact absurd rfl h
  | some m => exact mem_of_find?_or hpick

/-- A tunnel to this side is a tunnel. -/
theorem Tunneled.of_direct {localMembers : List String} {m : String}
    (h : Direct gossip localMembers m = true) : Tunneled gossip m = true := by
  obtain ⟨nb, hnb, -⟩ := List.any_eq_true.1 h
  have hne : (gossip.blosOf m).keys ≠ [] := List.ne_nil_of_mem hnb
  simpa [Tunneled] using hne

/-- A component has no gateway to pick exactly where none of its members has a
tunnel to speak of. -/
theorem pick_eq_empty_iff (hnamed : ∀ m ∈ ms, m ≠ "") :
    pickComponentGateway ms (localMembersOf R gossip selfPrimary) gossip = "" ↔
      Untunneled R gossip selfPrimary ms := by
  rw [pickComponentGateway_eq]
  cases hpick : ((ms.find? (Direct gossip (localMembersOf R gossip selfPrimary))).or
      (ms.find? (Chained gossip (localMembersOf R gossip selfPrimary)))).or
        (ms.find? (Tunneled gossip)) with
  | none =>
    obtain ⟨hfirst, htunneled⟩ := Option.or_eq_none_iff.1 hpick
    obtain ⟨-, hchained⟩ := Option.or_eq_none_iff.1 hfirst
    refine iff_of_true rfl fun m hm => ⟨?_, ?_⟩
    · exact eq_false_of_ne_true (List.find?_eq_none.1 hchained m hm)
    · exact eq_false_of_ne_true (List.find?_eq_none.1 htunneled m hm)
  | some m =>
    refine iff_of_false (hnamed m (mem_of_find?_or hpick)) fun huntunneled => ?_
    have hnone : ∀ p : String → Bool, (∀ m ∈ ms, p m = false) → ms.find? p = none :=
      fun p hp => List.find?_eq_none.2 fun m hm => by simp [hp m hm]
    have hdirect : ∀ m ∈ ms, Direct gossip (localMembersOf R gossip selfPrimary) m = false :=
      fun m hm => eq_false_of_ne_true fun h =>
        Bool.false_ne_true ((huntunneled m hm).2.symm.trans (Tunneled.of_direct h))
    rw [hnone _ hdirect, hnone _ fun m hm => (huntunneled m hm).1,
      hnone _ fun m hm => (huntunneled m hm).2] at hpick
    cases hpick

/-! ## Radio connectivity -/

/-- **Segments and gateways are a matter of radio connectivity.** -/
structure RFConnectivity (R : Runtime M) (origSnap : OriginatorTopology)
    (primaryByMac : Table String) (selfMAC selfPrimary : String) (gossip : GossipView M) :
    Prop where
  /-- Two primaries have one component id exactly when a chain of claims joins
  them. -/
  sameId : ∀ a b, a ≠ b ∨ a ∈ gossip.rfByPrimary →
    ((∃ cid, (componentsOf R gossip).1.lookup a = some cid ∧
      (componentsOf R gossip).1.lookup b = some cid) ↔ Meshed gossip a b)
  /-- A primary with a record is local exactly when it is this node or joined
  to it. -/
  isLocal : ∀ p ∈ gossip.rfByPrimary,
    ((classifyNodesWithGossip R origSnap primaryByMac selfMAC selfPrimary gossip).1.lookup p =
        some .segmentLocal ↔ p = selfPrimary ∨ Meshed gossip selfPrimary p)
  /-- The members of a component away from here that have a gateway have one
  and the same, one of them. -/
  gateway : ∀ ms ∈ (componentsOf R gossip).2, selfPrimary ∉ ms → ∃ g ∈ ms, ∀ m ∈ ms, ∀ gw,
    (classifyNodesWithGossip R origSnap primaryByMac selfMAC selfPrimary gossip).2.lookup m =
      some gw → gw = g

/-- What the originator table says of a remote component without a tunnel to
speak of: all its members that it gives a gateway are behind one of them. -/
def HeuristicAgrees (R : Runtime M) (origSnap : OriginatorTopology) (primaryByMac : Table String)
    (selfMAC selfPrimary : String) (gossip : GossipView M) : Prop :=
  ∀ ms ∈ (componentsOf R gossip).2, selfPrimary ∉ ms → Untunneled R gossip selfPrimary ms →
    ∃ g ∈ ms, ∀ m ∈ ms, ∀ gw,
      (classifyNodesHeuristic R origSnap primaryByMac selfMAC).2.lookup m = some gw → gw = g

theorem sameId_iff {a b : String} (hab : a ≠ b ∨ a ∈ gossip.rfByPrimary) :
    (∃ cid, (componentsOf R gossip).1.lookup a = some cid ∧
      (componentsOf R gossip).1.lookup b = some cid) ↔ Meshed gossip a b := by
  constructor
  · rintro ⟨cid, ha, hb⟩
    have hin : a ∈ (componentsOf R gossip).1 := AList.lookup_isSome.1 (by rw [ha]; rfl)
    exact (componentsOf_parted.lookup_eq_iff hin).1 (hb.trans ha.symm)
  · intro hmesh
    have hin : a ∈ (componentsOf R gossip).1 :=
      hab.elim (fun hne => hmesh.mem hne) mem_componentsOf
    obtain ⟨cid, hcid⟩ := Option.isSome_iff_exists.1 (AList.lookup_isSome.2 hin)
    exact ⟨cid, hcid, ((componentsOf_parted.lookup_eq_iff hin).2 hmesh).trans hcid⟩

/-- A member of a component is not joined to this node where this node is no
member. -/
theorem not_meshed_of_notMem (hms : ms ∈ (componentsOf R gossip).2) (hself : selfPrimary ∉ ms)
    {m : String} (hm : m ∈ ms) : ¬ Meshed gossip selfPrimary m := fun hmesh =>
  hself ((componentsOf_parted.meshed_iff hms hm).2 hmesh.symm)

/-- The gateway of a member of a remote component: the picked one, or the
originator table's word. -/
theorem lookup_gateways (hcoverage : gossip.coverage ≠ 0)
    (hms : ms ∈ (componentsOf R gossip).2) (hself : selfPrimary ∉ ms) {m : String} (hm : m ∈ ms) :
    (classifyNodesWithGossip R origSnap primaryByMac selfMAC selfPrimary gossip).2.lookup m =
      if pickComponentGateway ms (localMembersOf R gossip selfPrimary) gossip = "" then
        (classifyNodesHeuristic R origSnap primaryByMac selfMAC).2.lookup m
      else some (pickComponentGateway ms (localMembersOf R gossip selfPrimary) gossip) := by
  have haway := not_meshed_of_notMem hms hself hm
  rw [classifyNodesWithGossip_eq hcoverage, lookup_withFallback]
  split_ifs with hpick
  · have hnone : (componentGateways R gossip selfPrimary).lookup m = none := by
      refine lookup_componentGateways_eq_none fun ms' hms' hm' _ => ?_
      -- a primary is in one component
      have hsame : ms' = ms := by
        obtain ⟨cid, hcid⟩ := List.getElem?_of_mem hms
        obtain ⟨cid', hcid'⟩ := List.getElem?_of_mem hms'
        have hlookup := (componentsOf_parted.lookup m cid).2 ⟨ms, hcid, hm⟩
        have hlookup' := (componentsOf_parted.lookup m cid').2 ⟨ms', hcid', hm'⟩
        obtain rfl := Option.some.inj (hlookup.symm.trans hlookup')
        exact Option.some.inj (hcid'.symm.trans hcid)
      rw [hsame, hpick]
    rw [hnone, Option.none_or]
  · rw [lookup_componentGateways_of_mem hms hm haway hpick, Option.some_or]

theorem ne_empty_of_mem_component (hnamed : Named gossip) (hms : ms ∈ (componentsOf R gossip).2) :
    ∀ m ∈ ms, m ≠ "" := by
  intro m hm
  obtain ⟨cid, hcid⟩ := List.getElem?_of_mem hms
  have hlookup := (componentsOf_parted.lookup m cid).2 ⟨ms, hcid, hm⟩
  exact ne_empty_of_mem hnamed (AList.lookup_isSome.1 (by rw [hlookup]; rfl))

end

/-- **When segments and gateways are a matter of radio connectivity.** The ids
and the labels always are. The gateways are exactly where the originator table
gives the members of each remote component without a tunnel to speak of one
gateway, out of that component. -/
theorem rfConnectivity_iff {M : Type} (R : Runtime M) (F : Metrics M)
    (provider : Option MeshNeighborsProvider) (visNodes : List VisNode)
    (aliases hostnames : Table String) (origSnap : OriginatorTopology)
    (primaryByMac : Table String) (selfMAC selfPrimary : String) :
    RFConnectivity R origSnap primaryByMac selfMAC selfPrimary
        (buildGossipView R F provider visNodes aliases hostnames) ↔
      HeuristicAgrees R origSnap primaryByMac selfMAC selfPrimary
        (buildGossipView R F provider visNodes aliases hostnames) := by
  have hnamed : Named (buildGossipView R F provider visNodes aliases hostnames) :=
    buildGossipView_named
  have hcovered : ∀ p ∈ (buildGossipView R F provider visNodes aliases hostnames).rfByPrimary,
      (buildGossipView R F provider visNodes aliases hostnames).coverage ≠ 0 := by
    intro p hp hzero
    rw [buildGossipView_coverage hzero] at hp
    exact AList.notMem_empty p hp
  generalize buildGossipView R F provider visNodes aliases hostnames = gossip at hnamed hcovered ⊢
  have hcomponent : ∀ ms ∈ (componentsOf R gossip).2, gossip.coverage ≠ 0 := by
    intro ms hms
    obtain ⟨seed, hseed, -⟩ := componentsOf_parted.mesh ms hms
    exact hcovered seed hseed
  constructor
  · intro h ms hms hself huntunneled
    obtain ⟨g, hg, hall⟩ := h.gateway ms hms hself
    refine ⟨g, hg, fun m hm gw hgw => hall m hm gw ?_⟩
    rw [lookup_gateways (hcomponent ms hms) hms hself hm,
      if_pos ((pick_eq_empty_iff (ne_empty_of_mem_component hnamed hms)).2 huntunneled)]
    exact hgw
  · intro h
    refine ⟨fun a b hab => sameId_iff hab, fun p hp => ?_, fun ms hms hself => ?_⟩
    · obtain ⟨set, hset⟩ := Option.isSome_iff_exists.1 (AList.lookup_isSome.2 hp)
      exact lookup_segments (hcovered p hp) hp (hnamed p set hset).1
    · by_cases hpick : pickComponentGateway ms (localMembersOf R gossip selfPrimary) gossip = ""
      · obtain ⟨g, hg, hall⟩ := h ms hms hself
          ((pick_eq_empty_iff (ne_empty_of_mem_component hnamed hms)).1 hpick)
        refine ⟨g, hg, fun m hm gw hgw => hall m hm gw ?_⟩
        rwa [lookup_gateways (hcomponent ms hms) hms hself hm, if_pos hpick] at hgw
      · refine ⟨_, pick_mem hpick, fun m hm gw hgw => ?_⟩
        rw [lookup_gateways (hcomponent ms hms) hms hself hm, if_neg hpick] at hgw
        exact (Option.some.inj hgw).symm

/-- Two remote nodes that claim each other by radio and no tunnel, both
reached over the tunnel from this one. -/
def remotePair : Option MeshNeighborsProvider :=
  some
    { lookup mac :=
        if mac = "bb" then some ⟨some ⟨15, [⟨"cc", "wlan0", false, 10000, 0⟩], [], none⟩⟩
        else if mac = "cc" then some ⟨some ⟨15, [⟨"bb", "wlan0", false, 10000, 0⟩], [], none⟩⟩
        else none
      lookupByHostname _ := none }

/-- The MACs of this node and the two, each its own primary. -/
def pairAliases : Table String := ((AList.insert "aa" "aa" ∅).insert "bb" "bb").insert "cc" "cc"

/-- This node's routes to the two. -/
def pairRoutes : OriginatorTopology :=
  ⟨"aa", "", "BATMAN_V", [⟨"bb", "", "bb", blosIfname, 1⟩, ⟨"cc", "", "cc", blosIfname, 1⟩]⟩

/-- **One component behind two gateways**: the originator table's word makes
each of the two its own gateway. -/
theorem remotePair_scattered :
    ¬ RFConnectivity (.plain Unit) pairRoutes pairAliases "aa" "aa"
      (buildGossipView (.plain Unit) .unknown remotePair
        [⟨"aa", [], []⟩, ⟨"bb", [], []⟩, ⟨"cc", [], []⟩] pairAliases ∅) := by
  intro h
  obtain ⟨g, -, hall⟩ := h.gateway ["cc", "bb"] (by decide +kernel) (by decide)
  have hbb := hall "bb" (by decide) "bb" (by decide +kernel)
  have hcc := hall "cc" (by decide) "cc" (by decide +kernel)
  exact absurd (hbb.trans hcc.symm) (by decide)

end Topology

end OpenManet
