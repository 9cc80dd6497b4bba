import OpenManet.Topology.Components
/-!
# The order of walks: segments and gateways

Which primaries are local follows from the components, and so does which of
the others share a gateway. The gateway itself is the first member that will
do, in the order the walk took the members in; so is the local end of a link
beyond line of sight, where several have it at the same metric.
-/

namespace OpenManet

namespace Topology

open Table Relation

variable {M : Type} {R : Runtime M} {gossip : GossipView M} {selfPrimary a b m : String}

/-! ## The local component -/

/-- The components, as found. -/
def componentsOf (R : Runtime M) (gossip : GossipView M) : Table ℕ × List (List String) :=
  connectedComponents R (buildRFAdjacency R gossip) gossip

theorem componentsOf_parted : Parted gossip (componentsOf R gossip) :=
  (connectedComponents_parted R gossip).1

theorem mem_componentsOf (h : a ∈ gossip.rfByPrimary) : a ∈ (componentsOf R gossip).1 :=
  (connectedComponents_parted R gossip).2 a h

/-- Who is linked is in a component. -/
theorem RFLink.mem (h : RFLink gossip a b) : a ∈ (componentsOf R gossip).1 := by
  have hclaims : ∀ {x y}, y ∈ gossip.rfOf x → x ∈ gossip.rfByPrimary := by
    intro x y hy
    unfold GossipView.rfOf at hy
    rw [← AList.lookup_isSome]
    cases hx : gossip.rfByPrimary.lookup x with
    | none => rw [hx] at hy; exact absurd hy (AList.notMem_empty y)
    | some set => rfl
  rcases h.2.2.2 with hb | ha
  · exact mem_componentsOf (hclaims hb)
  · have hin := mem_componentsOf (R := R) (hclaims ha)
    rw [← AList.lookup_isSome, componentsOf_parted.closed hin (.single h.symm), AList.lookup_isSome]
    exact hin

/-- And so is who is meshed with another. -/
theorem Meshed.mem (h : Meshed gossip a b) (hne : a ≠ b) : a ∈ (componentsOf R gossip).1 := by
  rcases h.cases_head with heq | ⟨c, hlink, -⟩
  · exact absurd heq hne
  · exact hlink.mem

/-- No component has a primary without a MAC. -/
theorem ne_empty_of_mem (hnamed : Named gossip) (h : a ∈ (componentsOf R gossip).1) : a ≠ "" := by
  rintro rfl
  obtain ⟨cid, hcid⟩ := Option.isSome_iff_exists.1 (AList.lookup_isSome.2 h)
  obtain ⟨ms, hms, hin⟩ := (componentsOf_parted.lookup _ cid).1 hcid
  obtain ⟨seed, hseed, hmesh⟩ := componentsOf_parted.mesh ms (List.mem_of_getElem? hms)
  rcases ((hmesh "").1 hin).cases_tail with heq | ⟨c, -, hlink⟩
  · obtain ⟨set, hset⟩ := Option.isSome_iff_exists.1 (AList.lookup_isSome.2 hseed)
    exact (hnamed seed set hset).1 heq.symm
  · exact hlink.2.2.1 rfl

/-- The local component, as found. -/
def localMembersOf (R : Runtime M) (gossip : GossipView M) (selfPrimary : String) : List String :=
  localComponentSet (componentsOf R gossip).2 ((componentsOf R gossip).1.lookup selfPrimary)
    selfPrimary

/-- **Local is who is meshed with this node**, in every order. -/
theorem mem_localMembersOf (hnamed : Named gossip) :
    m ∈ localMembersOf R gossip selfPrimary ↔ selfPrimary ≠ "" ∧ Meshed gossip selfPrimary m := by
  unfold localMembersOf localComponentSet
  cases hcid : (componentsOf R gossip).1.lookup selfPrimary with
  | none =>
      have hout : selfPrimary ∉ (componentsOf R gossip).1 := AList.lookup_eq_none.1 hcid
      have halone : Meshed gossip selfPrimary m ↔ m = selfPrimary := by
        refine ⟨fun h => ?_, fun h => h ▸ .refl⟩
        by_contra hne
        exact hout (h.mem (Ne.symm hne))
      by_cases hself : selfPrimary = ""
      · simp [hself]
      · simp [hself, halone]
  | some cid =>
      obtain ⟨ms, hms, hin⟩ := (componentsOf_parted.lookup selfPrimary cid).1 hcid
      have hself : selfPrimary ≠ "" :=
        ne_empty_of_mem hnamed (AList.lookup_isSome.1 (by rw [hcid]; rfl))
      have hmesh : m ∈ ms ↔ Meshed gossip selfPrimary m :=
        componentsOf_parted.meshed_iff (List.mem_of_getElem? hms) hin
      rw [Option.bind_some, hms, Option.getD_some, if_pos hself, List.mem_append, List.mem_singleton,
        hmesh]
      exact ⟨fun h => ⟨hself, h.elim id fun h => h ▸ .refl⟩, fun h => .inl h.2⟩

/-- A primary with a record is local exactly when it is meshed with this
node. -/
theorem numbered_local_iff (selfPrimary : String) (hm : m ∈ gossip.rfByPrimary) :
    (((componentsOf R gossip).1.lookup selfPrimary).isSome = true ∧
        (componentsOf R gossip).1.lookup m = (componentsOf R gossip).1.lookup selfPrimary) ↔
      Meshed gossip selfPrimary m := by
  constructor
  · rintro ⟨hself, heq⟩
    exact (componentsOf_parted.lookup_eq_iff (AList.lookup_isSome.1 hself)).1 heq
  · intro h
    have heq := componentsOf_parted.closed (mem_componentsOf (R := R) hm) h.symm
    refine ⟨?_, heq.symm⟩
    rw [heq, AList.lookup_isSome]
    exact mem_componentsOf hm

/-! ## The gateway of a component -/

section Pick

variable {localMembers localMembers' members members' : List String}

/-- It has a link beyond line of sight into the local component. -/
def Direct (gossip : GossipView M) (localMembers : List String) (m : String) : Bool :=
  (gossip.blosOf m).keys.any (· ∈ localMembers)

/-- Its routes lead there over such links. -/
def Chained (gossip : GossipView M) (localMembers : List String) (m : String) : Bool :=
  reachableViaBLOSChain localMembers gossip hopsMaxWalk [m] [m]

/-- It has such a link to anywhere. -/
def Tunneled (gossip : GossipView M) (m : String) : Bool := !(gossip.blosOf m).keys.isEmpty

theorem pickComponentGateway_eq : pickComponentGateway members localMembers gossip =
    (((members.find? (Direct gossip localMembers)).or
      (members.find? (Chained gossip localMembers))).or
        (members.find? (Tunneled gossip))).getD "" := rfl

/-- No two primaries of a component away from here will both do for its
gateway, unless one that does better is there. -/
def GatewaysUntied (gossip : GossipView M) (localMembers : List String) (selfPrimary : String) :
    Prop :=
  ∀ m m', Meshed gossip m m' → ¬ Meshed gossip selfPrimary m → m ≠ m' →
    ¬ (Direct gossip localMembers m = true ∧ Direct gossip localMembers m' = true) ∧
    ((∀ n, Meshed gossip m n → Direct gossip localMembers n = false) →
      ¬ (Chained gossip localMembers m = true ∧ Chained gossip localMembers m' = true)) ∧
    ((∀ n, Meshed gossip m n → Direct gossip localMembers n = false ∧
        Chained gossip localMembers n = false) →
      ¬ (Tunneled gossip m = true ∧ Tunneled gossip m' = true))

variable (hlocal : ∀ m, m ∈ localMembers ↔ m ∈ localMembers')

include hlocal

theorem direct_congr : Direct gossip localMembers m = Direct gossip localMembers' m := by
  unfold Direct
  simp only [hlocal]

theorem chainLevel_congr (visited : List String) (origs : List GossipOriginator) :
    chainLevel localMembers visited origs = chainLevel localMembers' visited origs := by
  unfold chainLevel
  simp only [hlocal]

theorem chained_congr : Chained gossip localMembers m = Chained gossip localMembers' m := by
  have hreach : ∀ depth visited frontier,
      reachableViaBLOSChain localMembers gossip depth visited frontier =
        reachableViaBLOSChain localMembers' gossip depth visited frontier := by
    intro depth
    induction depth with
    | zero => exact fun visited frontier => rfl
    | succ depth ih =>
        intro visited frontier
        cases frontier with
        | nil => rfl
        | cons cur frontier =>
            unfold reachableViaBLOSChain
            simp only [chainLevel_congr hlocal, ih]
  exact hreach hopsMaxWalk [m] [m]

/-- **The gateway of a component** is the same whatever the order of its
members, where no two tie. -/
theorem pickComponentGateway_congr (hmembers : ∀ m, m ∈ members ↔ m ∈ members')
    (hmesh : ∀ m ∈ members, ∀ n, n ∈ members ↔ Meshed gossip m n)
    (haway : ∀ m ∈ members, ¬ Meshed gossip selfPrimary m)
    (huntied : GatewaysUntied gossip localMembers selfPrimary) :
    pickComponentGateway members localMembers gossip =
      pickComponentGateway members' localMembers' gossip := by
  have htie := fun m (hm : m ∈ members) m' (hm' : m' ∈ members) hne =>
    huntied m m' ((hmesh m hm m').1 hm') (haway m hm) hne
  have hnone : ∀ {p : String → Bool}, members.find? p = none → ∀ m ∈ members, ∀ n,
      Meshed gossip m n → p n = false := fun hfind m hm n hn => by
    rw [List.find?_eq_none] at hfind
    simpa using hfind n ((hmesh m hm n).2 hn)
  have hdirect : members.find? (Direct gossip localMembers) =
      members'.find? (Direct gossip localMembers') :=
    find?_eq_of_unique hmembers (fun m _ => direct_congr hlocal) fun m hm m' hm' h h' => by
      by_contra hne
      exact (htie m hm m' hm' hne).1 ⟨h, h'⟩
  rw [pickComponentGateway_eq, pickComponentGateway_eq, ← hdirect]
  cases hfound : members.find? (Direct gossip localMembers) with
  | some m => simp only [Option.some_or]
  | none =>
      have hchained : members.find? (Chained gossip localMembers) =
          members'.find? (Chained gossip localMembers') :=
        find?_eq_of_unique hmembers (fun m _ => chained_congr hlocal) fun m hm m' hm' h h' => by
          by_contra hne
          exact (htie m hm m' hm' hne).2.1 (hnone hfound m hm) ⟨h, h'⟩
      rw [Option.none_or, Option.none_or, ← hchained]
      cases hfound' : members.find? (Chained gossip localMembers) with
      | some m => simp only [Option.some_or]
      | none =>
          have htunneled : members.find? (Tunneled gossip) = members'.find? (Tunneled gossip) :=
            find?_eq_of_unique hmembers (fun m _ => rfl) fun m hm m' hm' h h' => by
              by_contra hne
              exact (htie m hm m' hm' hne).2.2
                (fun n hn => ⟨hnone hfound m hm n hn, hnone hfound' m hm n hn⟩) ⟨h, h'⟩
          rw [htunneled]

end Pick

/-! ## The tables of segments and gateways -/

section Classes

variable {order : Site → String → List String → List String}
variable (horder : ∀ site about keys, (order site about keys).Perm keys)

/-- What a component's turn writes under a member. -/
def gatewayTurn (R : Runtime M) (gossip : GossipView M) (selfPrimary k : String)
    (c : List String × ℕ) : Option String :=
  if (componentsOf R gossip).1.lookup selfPrimary = some c.2 ∨
      pickComponentGateway c.1 (localMembersOf R gossip selfPrimary) gossip = "" then none
  else if k ∈ c.1 then some (pickComponentGateway c.1 (localMembersOf R gossip selfPrimary) gossip)
  else none

/-- The gateways of the components, by member. -/
def componentGateways (R : Runtime M) (gossip : GossipView M) (selfPrimary : String) :
    Table String :=
  (componentsOf R gossip).2.zipIdx.foldl (fun gateways (members, cid) =>
    let gateway := pickComponentGateway members (localMembersOf R gossip selfPrimary) gossip
    if (componentsOf R gossip).1.lookup selfPrimary = some cid ∨ gateway = "" then gateways
    else members.foldl (fun gateways m => gateways.insert m gateway) gateways) ∅

theorem lookup_gatewayTurn {gateways : Table String} {k : String} {c : List String × ℕ} :
    (if (componentsOf R gossip).1.lookup selfPrimary = some c.2 ∨
        pickComponentGateway c.1 (localMembersOf R gossip selfPrimary) gossip = "" then gateways
      else c.1.foldl (fun gateways m => gateways.insert m
        (pickComponentGateway c.1 (localMembersOf R gossip selfPrimary) gossip)) gateways).lookup k =
      (gatewayTurn R gossip selfPrimary k c).or (gateways.lookup k) := by
  unfold gatewayTurn
  split
  · rfl
  · rw [lookup_foldl_insert]
    split
    · rfl
    · rfl

/-- A member of a component away from here has the gateway it picked. -/
theorem lookup_componentGateways_of_mem {ms : List String} {k : String}
    (hms : ms ∈ (componentsOf R gossip).2) (hk : k ∈ ms) (haway : ¬ Meshed gossip selfPrimary k)
    (hne : pickComponentGateway ms (localMembersOf R gossip selfPrimary) gossip ≠ "") :
    (componentGateways R gossip selfPrimary).lookup k =
      some (pickComponentGateway ms (localMembersOf R gossip selfPrimary) gossip) := by
  obtain ⟨cid, hcid⟩ := List.getElem?_of_mem hms
  have hlookup := (componentsOf_parted.lookup k cid).2 ⟨ms, hcid, hk⟩
  refine lookup_foldl_of_writes (w := gatewayTurn R gossip selfPrimary k)
    (fun gateways c _ => lookup_gatewayTurn) (fun c hc v hv => ?_) ⟨(ms, cid), ?_, ?_⟩
  · obtain ⟨-, hv⟩ := Option.ite_none_left_eq_some.1 hv
    obtain ⟨hin, hv⟩ := Option.ite_none_right_eq_some.1 hv
    have hlookup' := (componentsOf_parted.lookup k c.2).2 ⟨c.1, List.mk_mem_zipIdx_iff_getElem?.1 hc, hin⟩
    have hsame : c.2 = cid := Option.some.inj (hlookup'.symm.trans hlookup)
    have hcomp : c.1 = ms := Option.some.inj
      ((List.mk_mem_zipIdx_iff_getElem?.1 hc).symm.trans (hsame ▸ hcid))
    rw [← Option.some.inj hv, hcomp]
  · exact List.mk_mem_zipIdx_iff_getElem?.2 hcid
  · unfold gatewayTurn
    rw [if_neg, if_pos hk]
    rintro (hself | hempty)
    · have hin := AList.lookup_isSome.1 (by rw [hself]; rfl :
        ((componentsOf R gossip).1.lookup selfPrimary).isSome)
      exact haway ((componentsOf_parted.lookup_eq_iff hin).1 (hlookup.trans hself.symm))
    · exact hne hempty

/-- Nobody else has one. -/
theorem lookup_componentGateways_eq_none {k : String}
    (h : ∀ ms ∈ (componentsOf R gossip).2, k ∈ ms → ¬ Meshed gossip selfPrimary k →
      pickComponentGateway ms (localMembersOf R gossip selfPrimary) gossip = "") :
    (componentGateways R gossip selfPrimary).lookup k = none := by
  refine (lookup_foldl_of_silent (w := gatewayTurn R gossip selfPrimary k)
    (fun gateways c _ => lookup_gatewayTurn) fun c hc => ?_).trans (AList.lookup_empty k)
  have hcid := List.mk_mem_zipIdx_iff_getElem?.1 hc
  unfold gatewayTurn
  split
  · rfl
  · next hturn =>
    obtain ⟨hself, hne⟩ := not_or.1 hturn
    refine if_neg fun hin => hne (h c.1 (List.mem_of_getElem? hcid) hin fun hmesh => hself ?_)
    exact (componentsOf_parted.lookup selfPrimary c.2).2 ⟨c.1, hcid,
      (componentsOf_parted.meshed_iff (List.mem_of_getElem? hcid) hin).2 hmesh.symm⟩

include horder in
/-- **Which primary is behind which gateway** is the same in every order. -/
theorem componentGateways_same (hnamed : Named gossip)
    (huntied : GatewaysUntied gossip (localMembersOf R gossip selfPrimary) selfPrimary) :
    Same (componentGateways (R.reordered order horder) gossip selfPrimary)
      (componentGateways R gossip selfPrimary) := by
  intro k
  have hlocal : ∀ m, m ∈ localMembersOf R gossip selfPrimary ↔
      m ∈ localMembersOf (R.reordered order horder) gossip selfPrimary := fun m =>
    (mem_localMembersOf hnamed).trans (mem_localMembersOf hnamed).symm
  -- the components of `k` in the two orders pick the same
  have hpick : ∀ {ms ms'}, ms ∈ (componentsOf R gossip).2 → k ∈ ms →
      ms' ∈ (componentsOf (R.reordered order horder) gossip).2 → k ∈ ms' →
      ¬ Meshed gossip selfPrimary k →
      pickComponentGateway ms (localMembersOf R gossip selfPrimary) gossip =
        pickComponentGateway ms' (localMembersOf (R.reordered order horder) gossip selfPrimary)
          gossip := by
    intro ms ms' hms hk hms' hk' haway
    refine pickComponentGateway_congr hlocal (fun m => ?_) (fun m hm n => ?_) (fun m hm hmesh => ?_)
      huntied
    · exact (componentsOf_parted.meshed_iff hms hk).trans (componentsOf_parted.meshed_iff hms' hk').symm
    · exact componentsOf_parted.meshed_iff hms hm
    · exact haway (hmesh.trans ((componentsOf_parted.meshed_iff hms hm).1 hk))
  have hcomponent : ∀ Q : Runtime M, k ∈ (componentsOf Q gossip).1 →
      ∃ ms ∈ (componentsOf Q gossip).2, k ∈ ms := by
    intro Q hk
    obtain ⟨cid, hcid⟩ := Option.isSome_iff_exists.1 (AList.lookup_isSome.2 hk)
    obtain ⟨ms, hms, hin⟩ := (componentsOf_parted.lookup k cid).1 hcid
    exact ⟨ms, List.mem_of_getElem? hms, hin⟩
  have hmem : ∀ {Q P : Runtime M} {ms}, ms ∈ (componentsOf Q gossip).2 → k ∈ ms →
      ∃ ms' ∈ (componentsOf P gossip).2, k ∈ ms' := by
    intro Q P ms hms hk
    obtain ⟨seed, hseed, hmesh⟩ := componentsOf_parted.mesh ms hms
    have hin := mem_componentsOf (R := P) hseed
    refine hcomponent P (AList.lookup_isSome.1 ?_)
    rw [componentsOf_parted.closed hin ((hmesh k).1 hk), AList.lookup_isSome]
    exact hin
  by_cases h : ∃ ms ∈ (componentsOf R gossip).2, k ∈ ms ∧ ¬ Meshed gossip selfPrimary k ∧
      pickComponentGateway ms (localMembersOf R gossip selfPrimary) gossip ≠ ""
  · obtain ⟨ms, hms, hk, haway, hne⟩ := h
    obtain ⟨ms', hms', hk'⟩ := hmem (P := R.reordered order horder) hms hk
    have hsame := hpick hms hk hms' hk' haway
    rw [lookup_componentGateways_of_mem hms hk haway hne, hsame]
    exact lookup_componentGateways_of_mem hms' hk' haway (hsame ▸ hne)
  · have hempty : ∀ ms ∈ (componentsOf R gossip).2, k ∈ ms → ¬ Meshed gossip selfPrimary k →
        pickComponentGateway ms (localMembersOf R gossip selfPrimary) gossip = "" := by
      intro ms hms hk haway
      by_contra hne
      exact h ⟨ms, hms, hk, haway, hne⟩
    rw [lookup_componentGateways_eq_none hempty]
    refine lookup_componentGateways_eq_none fun ms' hms' hk' haway => ?_
    obtain ⟨ms, hms, hk⟩ := hmem (P := R) hms' hk'
    exact (hpick hms hk hms' hk' haway).symm.trans (hempty ms hms hk haway)

section Fallback

variable {primaryByMac primaryByMac' : Table String} {selfMAC : String}
variable (hget : ∀ k, primaryByMac'.get k = primaryByMac.get k)

include hget

theorem resolvePrimary_congr (mac : String) :
    resolvePrimary primaryByMac' mac = resolvePrimary primaryByMac mac := by
  unfold resolvePrimary
  rw [hget]

theorem resolveBLOSGateway_congr (entries : Table OriginatorEntry) (steps : ℕ) (cursor : String) :
    resolveBLOSGateway (R.reordered order horder) entries primaryByMac' selfMAC steps cursor =
      resolveBLOSGateway R entries primaryByMac selfMAC steps cursor := by
  induction steps generalizing cursor with
  | zero => rfl
  | succ steps ih =>
      unfold resolveBLOSGateway
      simp only [hget, ih]
      rfl

/-- The originator table's word rests on the aliases alone. -/
theorem classifyNodesHeuristic_congr (origSnap : OriginatorTopology) :
    classifyNodesHeuristic (R.reordered order horder) origSnap primaryByMac' selfMAC =
      classifyNodesHeuristic R origSnap primaryByMac selfMAC := by
  have hfun : primaryByMac'.get = primaryByMac.get := funext hget
  unfold classifyNodesHeuristic ifsByPrimary blosEntryByPrimary
  simp only [resolveBLOSGateway_congr horder hget]
  rw [hfun]
  rfl

end Fallback

theorem withFallback_same {α : Type} {m m' : Table α} (h : Same m' m) (fallback : Table α) :
    Same (withFallback m' fallback) (withFallback m fallback) := by
  refine foldl_same_of_turn h fun m m' h p _ => ?_
  cases fallback.lookup p with
  | none => exact h
  | some v =>
      by_cases hp : p ∈ m
      · simp only [if_pos hp, if_pos (h.mem_iff.2 hp)]
        exact h
      · simp only [if_neg hp, if_neg fun hp' => hp (h.mem_iff.1 hp')]
        exact h.insert p v

/-- **Segments and gateways** are the same in every order, where no component
has a tie. -/
theorem classifyNodesWithGossip_same (hnamed : Named gossip)
    (huntied : GatewaysUntied gossip (localMembersOf R gossip selfPrimary) selfPrimary)
    {primaryByMac primaryByMac' : Table String}
    (hget : ∀ k, primaryByMac'.get k = primaryByMac.get k) (origSnap : OriginatorTopology)
    (selfMAC : String) :
    (classifyNodesWithGossip (R.reordered order horder) origSnap primaryByMac' selfMAC selfPrimary
        gossip).1 =
      (classifyNodesWithGossip R origSnap primaryByMac selfMAC selfPrimary gossip).1 ∧
    Same (classifyNodesWithGossip (R.reordered order horder) origSnap primaryByMac' selfMAC
        selfPrimary gossip).2
      (classifyNodesWithGossip R origSnap primaryByMac selfMAC selfPrimary gossip).2 := by
  unfold classifyNodesWithGossip
  simp only [classifyNodesHeuristic_congr horder hget]
  split
  · exact ⟨rfl, Same.refl _⟩
  · refine ⟨?_, withFallback_same (componentGateways_same horder hnamed huntied) _⟩
    have hsegments : ∀ Q : Runtime M, gossip.rfByPrimary.keys.foldl (fun segments primary =>
        segments.insert primary (if ((componentsOf Q gossip).1.lookup selfPrimary).isSome ∧
          (componentsOf Q gossip).1.lookup primary = (componentsOf Q gossip).1.lookup selfPrimary
          then .segmentLocal else .segmentRemote)) (∅ : Table Segment) =
        gossip.rfByPrimary.keys.foldl (fun segments primary =>
          segments.insert primary (if ((componentsOf R gossip).1.lookup selfPrimary).isSome ∧
            (componentsOf R gossip).1.lookup primary = (componentsOf R gossip).1.lookup selfPrimary
            then .segmentLocal else .segmentRemote)) (∅ : Table Segment) := by
      intro Q
      refine List.foldl_ext _ _ _ fun segments primary hprimary => ?_
      have hiff := (numbered_local_iff selfPrimary (R := Q)
        (AList.mem_keys.2 hprimary)).trans
        (numbered_local_iff selfPrimary (R := R) (AList.mem_keys.2 hprimary)).symm
      simp only [hiff]
    exact congrArg (fun segments : Table Segment => withFallback
      (if selfPrimary ≠ "" then segments.insert selfPrimary .segmentLocal else segments) _)
        (hsegments (R.reordered order horder))

end Classes

end Topology

end OpenManet
