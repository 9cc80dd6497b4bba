import OpenManet.Topology.Redirects
/-!
# The order of walks: nodes, edges and the merge

The nodes and the edges are sorted in the end, so the order of a walk shows in
what they are and not in where they stand. A primary the vis document leaves
out is made of the first route to it that is read; an edge has the first
metric other than zero that a record claims for it.

Where none of these choices has a tie, the merged topology is a function of
the snapshot.
-/

namespace OpenManet

namespace Topology

open Table

variable {M : Type} {R : Runtime M} {F : Metrics M}
variable {order : Site → String → List String → List String}
variable (horder : ∀ site about keys, (order site about keys).Perm keys)

/-! ## Nodes -/

section Nodes

variable {I : NodeInputs} {visNodes : List VisNode} {nodes : List MeshNode}

/-- Two routes to a primary the vis document leaves out make the same node of
it. -/
def OriginatorsUntied (R : Runtime M) (I : NodeInputs) (visNodes : List VisNode) : Prop :=
  ∀ mac entry mac' entry', I.origByMac.lookup mac = some entry →
    I.origByMac.lookup mac' = some entry' →
    resolvePrimary I.primaryByMac mac = resolvePrimary I.primaryByMac mac' →
    (∀ n ∈ visNodesOf R I visNodes, n.mac ≠ resolvePrimary I.primaryByMac mac) →
    originatorNode I (resolvePrimary I.primaryByMac mac) entry =
      originatorNode I (resolvePrimary I.primaryByMac mac) entry'

/-- Two vis entries that stand in one place of the order make the same node. -/
def NodesUntied (R : Runtime M) (I : NodeInputs) (visNodes : List VisNode) : Prop :=
  ∀ n ∈ visNodesOf R I visNodes, ∀ n' ∈ visNodesOf R I visNodes, n.key = n'.key → n = n'

/-- The primary a route leads to. -/
abbrev routed (I : NodeInputs) (e : String × OriginatorEntry) : String :=
  resolvePrimary I.primaryByMac e.1

/-- **What the routes add**: one node for each primary that has none. -/
theorem foldl_addOriginatorNode {l : List (String × OriginatorEntry)}
    (h : ∀ e ∈ l, ∀ e' ∈ l, routed I e = routed I e' → (∀ n ∈ nodes, n.mac ≠ routed I e) →
      originatorNode I (routed I e) e.2 = originatorNode I (routed I e) e'.2) :
    ∃ added, l.foldl (addOriginatorNode I) nodes = nodes ++ added ∧
      added.Pairwise (fun n n' => n.mac ≠ n'.mac) ∧
      ∀ n, n ∈ added ↔ ∃ e ∈ l, (∀ n' ∈ nodes, n'.mac ≠ routed I e) ∧
        n = originatorNode I (routed I e) e.2 := by
  induction l generalizing nodes with
  | nil => exact ⟨[], (List.append_nil nodes).symm, List.Pairwise.nil, fun n => by simp⟩
  | cons e l ih =>
      have hmac : ∀ e : String × OriginatorEntry,
          (originatorNode I (routed I e) e.2).mac = routed I e :=
        fun e => (originatorNode_ok _ _).2
      by_cases hseen : nodes.any (·.mac = routed I e) = true
      · have hturn : addOriginatorNode I nodes e = nodes := if_pos hseen
        obtain ⟨added, hrun, hpairwise, hmem⟩ := ih fun e' he' e'' he'' =>
          h e' (List.mem_cons_of_mem e he') e'' (List.mem_cons_of_mem e he'')
        refine ⟨added, by rw [List.foldl_cons, hturn, hrun], hpairwise, fun n => ?_⟩
        rw [hmem, List.exists_mem_cons_iff, or_iff_right]
        rintro ⟨hnew, -⟩
        obtain ⟨n', hn', hsame⟩ := List.any_eq_true.1 hseen
        exact hnew n' hn' (of_decide_eq_true hsame)
      · have hnew : ∀ n' ∈ nodes, n'.mac ≠ routed I e := fun n' hn' hsame =>
          hseen (List.any_eq_true.2 ⟨n', hn', decide_eq_true hsame⟩)
        have hturn : addOriginatorNode I nodes e =
            nodes ++ [originatorNode I (routed I e) e.2] := if_neg hseen
        obtain ⟨added, hrun, hpairwise, hmem⟩ := @ih
          (nodes ++ [originatorNode I (routed I e) e.2])
          fun e' he' e'' he'' hsame hout => h e' (List.mem_cons_of_mem e he') e''
            (List.mem_cons_of_mem e he'') hsame fun n hn => hout n (List.mem_append_left _ hn)
        have hadded : ∀ n ∈ added, n.mac ≠ routed I e := by
          intro n hn
          obtain ⟨e', -, hout, rfl⟩ := (hmem n).1 hn
          rw [hmac]
          exact fun hsame => hout _ (List.mem_append_right _ (List.mem_singleton_self _))
            ((hmac e).trans hsame.symm)
        refine ⟨originatorNode I (routed I e) e.2 :: added, ?_, ?_, fun n => ?_⟩
        · rw [List.foldl_cons, hturn, hrun, List.append_assoc, List.singleton_append]
        · refine List.pairwise_cons.2 ⟨fun n hn => ?_, hpairwise⟩
          rw [hmac]
          exact (hadded n hn).symm
        · rw [List.mem_cons, hmem, List.exists_mem_cons_iff]
          constructor
          · rintro (rfl | ⟨e', he', hout, rfl⟩)
            · exact .inl ⟨hnew, rfl⟩
            · exact .inr ⟨e', he', fun n hn => hout n (List.mem_append_left _ hn), rfl⟩
          · rintro (⟨-, rfl⟩ | ⟨e', he', hout, rfl⟩)
            · exact .inl rfl
            · by_cases hsame : routed I e = routed I e'
              · refine .inl ?_
                rw [h e List.mem_cons_self e' (List.mem_cons_of_mem e he') hsame hnew, hsame]
              · refine .inr ⟨e', he', fun n hn => ?_, rfl⟩
                rcases List.mem_append.1 hn with hn | hn
                · exact hout n hn
                · rw [List.mem_singleton.1 hn, hmac]
                  exact hsame

theorem visNodesOf_reordered :
    visNodesOf (R.reordered order horder) I visNodes = visNodesOf R I visNodes := rfl

/-- The same nodes in every order, where no two routes to one primary differ. -/
theorem routedNodes_perm (huntied : OriginatorsUntied R I visNodes) :
    (routedNodes (R.reordered order horder) I visNodes).Perm (routedNodes R I visNodes) := by
  have hentry : ∀ {Q : Runtime M} {e : String × OriginatorEntry},
      e ∈ Q.range .origByMac "" I.origByMac ↔ I.origByMac.lookup e.1 = some e.2 := by
    intro Q e
    exact mem_range (k := e.1) (v := e.2) (Q.order_perm _ _)
  have hruns : ∀ Q : Runtime M, ∀ e ∈ Q.range .origByMac "" I.origByMac,
      ∀ e' ∈ Q.range .origByMac "" I.origByMac, routed I e = routed I e' →
      (∀ n ∈ visNodesOf R I visNodes, n.mac ≠ routed I e) →
      originatorNode I (routed I e) e.2 = originatorNode I (routed I e) e'.2 :=
    fun Q e he e' he' => huntied e.1 e.2 e'.1 e'.2 (hentry.1 he) (hentry.1 he')
  obtain ⟨added, hrun, hpairwise, hmem⟩ := foldl_addOriginatorNode (hruns R)
  obtain ⟨added', hrun', hpairwise', hmem'⟩ :=
    foldl_addOriginatorNode (hruns (R.reordered order horder))
  have hnodup : ∀ {l : List MeshNode}, l.Pairwise (fun n n' => n.mac ≠ n'.mac) → l.Nodup :=
    fun h => h.imp fun hne heq => hne (congrArg MeshNode.mac heq)
  have hperm : added'.Perm added := by
    refine (List.perm_ext_iff_of_nodup (hnodup hpairwise') (hnodup hpairwise)).2 fun n => ?_
    rw [hmem, hmem']
    simp only [hentry]
  rw [routedNodes, routedNodes, visNodesOf_reordered, hrun, hrun']
  exact hperm.append_left _

/-- Two sorted lists of the same nodes are one, where the order tells the nodes
apart. -/
theorem sortNodes_congr {l l' : List MeshNode} (hperm : l'.Perm l)
    (hkeys : ∀ n ∈ l, ∀ n' ∈ l, n.key = n'.key → n = n') : R.sortNodes l' = R.sortNodes l := by
  have hin : ∀ {l : List MeshNode} {n}, n ∈ R.sortNodes l ↔ n ∈ l :=
    (R.sortNodes_perm _).mem_iff
  refine List.Perm.eq_of_pairwise (fun n n' hn hn' hle hle' => ?_)
    (R.sortNodes_sorted l') (R.sortNodes_sorted l)
    ((R.sortNodes_perm l').trans (hperm.trans (R.sortNodes_perm l).symm))
  refine hkeys n (hperm.mem_iff.1 (hin.1 hn)) n' (hin.1 hn') (le_antisymm ?_ ?_)
  · exact not_lt.1 fun hlt => by simp [(MeshNode.less_iff n' n).2 hlt] at hle
  · exact not_lt.1 fun hlt => by simp [(MeshNode.less_iff n n').2 hlt] at hle'

theorem mac_eq_of_key_eq {n n' : MeshNode} (h : n.key = n'.key) : n.mac = n'.mac := by
  have hinner := congrArg (fun k => (ofLex (ofLex (ofLex k).2).2).2) h
  exact hinner

/-- **The nodes** are the same in every order. -/
theorem buildMeshNodes_reordered (horiginators : OriginatorsUntied R I visNodes)
    (hnodes : NodesUntied R I visNodes) :
    buildMeshNodes (R.reordered order horder) I visNodes = buildMeshNodes R I visNodes := by
  have hperm := routedNodes_perm horder horiginators
  have hany : (routedNodes (R.reordered order horder) I visNodes).any (·.mac = I.selfPrimary) =
      (routedNodes R I visNodes).any (·.mac = I.selfPrimary) := by
    rw [Bool.eq_iff_iff, List.any_eq_true, List.any_eq_true]
    simp only [hperm.mem_iff]
  -- the nodes that routes add have MACs of their own
  have hkeys : ∀ n ∈ routedNodes R I visNodes, ∀ n' ∈ routedNodes R I visNodes,
      n.key = n'.key → n = n' := by
    obtain ⟨added, hrun, hpairwise, hmem⟩ := @foldl_addOriginatorNode I
      (visNodesOf R I visNodes) (R.range .origByMac "" I.origByMac)
      fun e he e' he' => horiginators e.1 e.2 e'.1 e'.2
        ((mem_range (k := e.1) (v := e.2) (R.order_perm _ _)).1 he)
        ((mem_range (k := e'.1) (v := e'.2) (R.order_perm _ _)).1 he')
    have hapart : ∀ n ∈ visNodesOf R I visNodes, ∀ n' ∈ added, n.mac ≠ n'.mac := by
      intro n hn n' hn'
      obtain ⟨e, -, hout, rfl⟩ := (hmem n').1 hn'
      rw [(originatorNode_ok _ _).2]
      exact hout n hn
    rw [routedNodes, hrun]
    intro n hn n' hn' hkey
    have hmac := mac_eq_of_key_eq hkey
    rcases List.mem_append.1 hn with hn | hn <;> rcases List.mem_append.1 hn' with hn' | hn'
    · exact hnodes n hn n' hn' hkey
    · exact absurd hmac (hapart n hn n' hn')
    · exact absurd hmac.symm (hapart n' hn' n hn)
    · have : Std.Symm (fun n n' : MeshNode => n.mac ≠ n'.mac) := ⟨fun _ _ h => h.symm⟩
      by_contra hne
      exact hpairwise.forall hn hn' hne hmac
  unfold buildMeshNodes
  simp only [hany]
  split
  · next hadd =>
    refine sortNodes_congr (R := R) (hperm.append_right _) fun n hn n' hn' hkey => ?_
    have hout : ∀ n ∈ routedNodes R I visNodes, n.mac ≠ I.selfPrimary := fun n hn hsame => by
      have hnone : (routedNodes R I visNodes).any (·.mac = I.selfPrimary) = false := by
        simpa using hadd.2
      rw [List.any_eq_false] at hnone
      exact hnone n hn (decide_eq_true hsame)
    have hmac := mac_eq_of_key_eq hkey
    rcases List.mem_append.1 hn with hn | hn <;> rcases List.mem_append.1 hn' with hn' | hn'
    · exact hkeys n hn n' hn' hkey
    · rw [List.mem_singleton.1 hn'] at hmac
      exact absurd hmac (hout n hn)
    · rw [List.mem_singleton.1 hn] at hmac
      exact absurd hmac.symm (hout n' hn')
    · rw [List.mem_singleton.1 hn, List.mem_singleton.1 hn']
  · exact sortNodes_congr (R := R) hperm hkeys

/-- The same inputs with other tables to look up in. -/
def NodeInputs.withTables (I : NodeInputs) (primaryByMac gatewayByPrimary : Table String) :
    NodeInputs :=
  { I with primaryByMac := primaryByMac, gatewayByPrimary := gatewayByPrimary }

/-- What nodes are made of is looked up. -/
theorem buildMeshNodes_congr {primaryByMac gatewayByPrimary : Table String}
    (hprimary : Same primaryByMac I.primaryByMac) (hgateway : Same gatewayByPrimary I.gatewayByPrimary) :
    buildMeshNodes R (I.withTables primaryByMac gatewayByPrimary) visNodes =
      buildMeshNodes R I visNodes := by
  have hvis : visNodesOf R (I.withTables primaryByMac gatewayByPrimary) visNodes =
      visNodesOf R I visNodes := by
    unfold visNodesOf visNode applySegment NodeInputs.withTables
    simp only [hprimary _, hgateway _]
  have hadd : addOriginatorNode (I.withTables primaryByMac gatewayByPrimary) =
      addOriginatorNode I := by
    funext nodes e
    have hresolve : resolvePrimary primaryByMac = resolvePrimary I.primaryByMac :=
      funext (resolvePrimary_congr hprimary.get)
    unfold addOriginatorNode originatorNode applySegment NodeInputs.withTables
    simp only
    rw [hresolve, hgateway]
  unfold buildMeshNodes routedNodes
  simp only [hvis, hadd]
  rfl

end Nodes

/-! ## Edges -/

section Edges

variable {value : M → ℚ} {I : EdgeInputs M} {edgeByKey edgeByKey' : Table (MeshEdge M)}
variable {a b k : String} {x : M} {onMyPath : Bool} {segments : Table Segment} {known : List String}

/-- What a pair's edge becomes by `addEdge`. -/
def joined (F : Metrics M) (segments : Table Segment) (pair : String × String) (x : M)
    (onMyPath : Bool) : Option (MeshEdge M) → MeshEdge M
  | some existing =>
      { existing with
        onMyPath := existing.onMyPath || onMyPath
        metric := if !F.eq x F.zero && F.eq existing.metric F.zero then x else existing.metric }
  | none =>
      { fromMac := pair.1
        toMac := pair.2
        metric := x
        blos := decide (segmentOrDefault segments pair.1 ≠ segmentOrDefault segments pair.2)
        onMyPath := onMyPath }

/-- The pair can have an edge. -/
def Joins (R : Runtime M) (known : List String) (a b : String) : Prop :=
  (canonicalPair R a b).1 ≠ (canonicalPair R a b).2 ∧ (canonicalPair R a b).1 ∈ known ∧
    (canonicalPair R a b).2 ∈ known

instance : Decidable (Joins R known a b) := inferInstanceAs (Decidable (_ ∧ _))

theorem lookup_addEdge : (addEdge R F segments known edgeByKey a b x onMyPath).lookup k =
    if Joins R known a b ∧ canonicalKey R a b = k then
      some (joined F segments (canonicalPair R a b) x onMyPath (edgeByKey.lookup k))
    else edgeByKey.lookup k := by
  by_cases hjoins : Joins R known a b
  · obtain ⟨hne, hfrom, hto⟩ := id hjoins
    have hbody : addEdge R F segments known edgeByKey a b x onMyPath =
        edgeByKey.insert (canonicalKey R a b) (joined F segments (canonicalPair R a b) x onMyPath
          (edgeByKey.lookup (canonicalKey R a b))) := by
      unfold addEdge
      simp only
      rw [if_neg hne, if_neg (by simp [hfrom, hto])]
      unfold canonicalKey
      cases edgeByKey.lookup (pairKey (canonicalPair R a b)) <;> rfl
    rw [hbody, lookup_insert_eq]
    by_cases hk : k = canonicalKey R a b
    · subst hk
      rw [if_pos rfl, if_pos ⟨hjoins, rfl⟩]
    · rw [if_neg hk, if_neg fun h => hk h.2.symm]
  · rw [if_neg fun h => hjoins h.1]
    have hskip : addEdge R F segments known edgeByKey a b x onMyPath = edgeByKey := by
      unfold addEdge
      simp only
      split
      · rfl
      · next hne =>
        refine if_pos ?_
        by_contra hknown
        obtain ⟨hfrom, hto⟩ := not_or.1 hknown
        exact hjoins ⟨hne, not_not.1 hfrom, not_not.1 hto⟩
    rw [hskip]

/-- The claim is of a link within one segment, between rendered primaries. -/
def Drawn (R : Runtime M) (I : EdgeInputs M) (a b : String) : Prop :=
  segmentOrDefault I.segmentByPrimary a = segmentOrDefault I.segmentByPrimary b ∧
    Joins R I.knownPrimaries a b

instance : Decidable (Drawn R I a b) := inferInstanceAs (Decidable (_ ∧ _))

/-- Two claims by radio about one edge are about one pair, and claim the same
metric where both claim one. -/
def RadioUntied (R : Runtime M) (F : Metrics M) (I : EdgeInputs M) : Prop :=
  ∀ a b x a' b' x', (I.gossip.rfOf a).lookup b = some x → (I.gossip.rfOf a').lookup b' = some x' →
    Drawn R I a b → Drawn R I a' b' → canonicalKey R a b = canonicalKey R a' b' →
    canonicalPair R a b = canonicalPair R a' b' ∧ (x = x' ∨ x = F.zero ∨ x' = F.zero)

/-- The first loop of `layerGossipEdges`. -/
def layerRadioEdges (R : Runtime M) (F : Metrics M) (I : EdgeInputs M)
    (edgeByKey : Table (MeshEdge M)) : Table (MeshEdge M) :=
  (claims R .gossipRF .gossipRFNeighbors I.gossip.rfByPrimary).foldl
    (fun edgeByKey c => gossipEdge R F I c.1 edgeByKey c.2) edgeByKey

/-- Two claims of tunnels about one edge that has no metric yet claim the same
one, where both claim one. -/
def TunnelsUntied (R : Runtime M) (F : Metrics M) (I : EdgeInputs M)
    (edgeByKey : Table (MeshEdge M)) : Prop :=
  ∀ a b x a' b' x' e, (I.gossip.blosOf a).lookup b = some x →
    (I.gossip.blosOf a').lookup b' = some x' → canonicalKey R a b = canonicalKey R a' b' →
    edgeByKey.lookup (canonicalKey R a b) = some e → F.eq e.metric F.zero = true →
    F.le x F.zero = false → F.le x' F.zero = false → x = x'

theorem lookup_gossipEdge (c : String × M) : (gossipEdge R F I a edgeByKey c).lookup k =
    if Drawn R I a c.1 ∧ canonicalKey R a c.1 = k then
      some (joined F I.segmentByPrimary (canonicalPair R a c.1) c.2 false (edgeByKey.lookup k))
    else edgeByKey.lookup k := by
  unfold gossipEdge Drawn
  by_cases hsegment : segmentOrDefault I.segmentByPrimary a = segmentOrDefault I.segmentByPrimary c.1
  · rw [if_neg (not_not.2 hsegment), lookup_addEdge]
    simp only [hsegment, true_and]
  · rw [if_pos hsegment, if_neg fun h => hsegment h.1.1]

/-- **Two claims of one link** may come in either order. -/
theorem joined_comm (hworth : F.Worth value) {x x' : M} {pair : String × String}
    (hx : F.Gossiped x) (hx' : F.Gossiped x') (h : x = x' ∨ x = F.zero ∨ x' = F.zero)
    (o : Option (MeshEdge M)) :
    joined F segments pair x' false (some (joined F segments pair x false o)) =
      joined F segments pair x false (some (joined F segments pair x' false o)) := by
  have hzero : F.eq F.zero F.zero = true := (hworth.eq _ _ (.inl rfl) (.inl rfl)).2 rfl
  have hsame : ∀ {y}, F.Gossiped y → F.eq y F.zero = true → y = F.zero :=
    fun hy heq => (hworth.eq _ _ hy (.inl rfl)).1 heq
  rcases h with rfl | rfl | rfl
  · rfl
  · cases o with
    | none =>
        cases hz : F.eq x' F.zero with
        | false => simp [joined, hz, hzero]
        | true => simp [joined, hsame hx' hz, hzero]
    | some e => simp [joined, hzero]
  · cases o with
    | none =>
        cases hz : F.eq x F.zero with
        | false => simp [joined, hz, hzero]
        | true => simp [joined, hsame hx hz, hzero]
    | some e => simp [joined, hzero]

/-- **The radio edges** are the same in every order. -/
theorem layerRadioEdges_same (hworth : F.Worth value) (hgossip : I.gossip.Gossiped F)
    (huntied : RadioUntied R F I) (h : Same edgeByKey' edgeByKey) :
    Same (layerRadioEdges (R.reordered order horder) F I edgeByKey')
      (layerRadioEdges R F I edgeByKey) := by
  refine foldl_same (g := fun k o c => if Drawn R I c.1 c.2.1 ∧ canonicalKey R c.1 c.2.1 = k then
    some (joined F I.segmentByPrimary (canonicalPair R c.1 c.2.1) c.2.2 false o) else o)
    h (claims_perm horder) (fun k m c _ => lookup_gossipEdge c.2) ?_
  rintro k o ⟨a, b, x⟩ hc ⟨a', b', x'⟩ hc'
  by_cases hk : Drawn R I a b ∧ canonicalKey R a b = k
  · by_cases hk' : Drawn R I a' b' ∧ canonicalKey R a' b' = k
    · have hclaim := mem_claims_iff.1 hc
      have hclaim' := mem_claims_iff.1 hc'
      obtain ⟨hpair, hmetric⟩ := huntied a b x a' b' x' hclaim hclaim' hk.1 hk'.1
        (hk.2.trans hk'.2.symm)
      obtain ⟨set, hset, hx⟩ := mem_claims.1 hc
      obtain ⟨set', hset', hx'⟩ := mem_claims.1 hc'
      simp only [if_pos hk, if_pos hk', ← hpair]
      exact congrArg some (joined_comm hworth (hgossip.rf a set hset b x hx)
        (hgossip.rf a' set' hset' b' x' hx') hmetric o)
    · simp only [if_neg hk']
  · simp only [if_neg hk]

theorem lookup_upgradeEdgeMetric : (upgradeEdgeMetric R F edgeByKey a b x).lookup k =
    if F.le x F.zero = false ∧ canonicalKey R a b = k then
      (edgeByKey.lookup k).map fun e => if F.eq e.metric F.zero then { e with metric := x } else e
    else edgeByKey.lookup k := by
  unfold upgradeEdgeMetric
  cases hle : F.le x F.zero with
  | true => simp
  | false =>
      rw [if_neg (by simp)]
      by_cases hk : canonicalKey R a b = k
      · subst hk
        rw [if_pos ⟨rfl, rfl⟩]
        cases hold : edgeByKey.lookup (canonicalKey R a b) with
        | none => exact hold
        | some e =>
            simp only [Option.map_some]
            split
            · exact AList.lookup_insert _
            · exact hold
      · rw [if_neg fun h => hk h.2]
        cases edgeByKey.lookup (canonicalKey R a b) with
        | none => rfl
        | some e =>
            simp only
            split
            · exact AList.lookup_insert_ne (Ne.symm hk)
            · rfl

theorem layerGossipEdges_eq : layerGossipEdges R F I edgeByKey =
    (claims R .gossipBLOS .gossipBLOSNeighbors I.gossip.blosByPrimary).foldl
      (fun edgeByKey c => upgradeEdgeMetric R F edgeByKey c.1 c.2.1 c.2.2)
      (layerRadioEdges R F I edgeByKey) := by
  rw [layerRadioEdges, ← foldl_claims (fun edgeByKey p n => gossipEdge R F I p edgeByKey n),
    ← foldl_claims (fun edgeByKey p n => upgradeEdgeMetric R F edgeByKey p n.1 n.2)]
  rfl

/-- **The edges of gossip** are the same in every order, where no link and no
tunnel has a tie. -/
theorem layerGossipEdges_same (hworth : F.Worth value) (hgossip : I.gossip.Gossiped F)
    (hradio : RadioUntied R F I) (htunnels : TunnelsUntied R F I (layerRadioEdges R F I edgeByKey))
    (h : Same edgeByKey' edgeByKey) :
    Same (layerGossipEdges (R.reordered order horder) F I edgeByKey')
      (layerGossipEdges R F I edgeByKey) := by
  rw [layerGossipEdges_eq, layerGossipEdges_eq]
  intro k
  have hcell : ∀ (l : List (String × String × M)) (t : Table (MeshEdge M)),
      (l.foldl (fun t c => upgradeEdgeMetric R F t c.1 c.2.1 c.2.2) t).lookup k =
        l.foldl (fun o c => if F.le c.2.2 F.zero = false ∧ canonicalKey R c.1 c.2.1 = k then
          o.map fun e => if F.eq e.metric F.zero then { e with metric := c.2.2 } else e else o)
          (t.lookup k) :=
    fun l t => lookup_foldl fun m c _ => lookup_upgradeEdgeMetric
  have hsame := layerRadioEdges_same horder hworth hgossip hradio h k
  refine (hcell (claims (R.reordered order horder) .gossipBLOS .gossipBLOSNeighbors _)
    (layerRadioEdges (R.reordered order horder) F I edgeByKey')).trans ?_
  rw [hcell, hsame]
  by_cases hopen : ∃ e, (layerRadioEdges R F I edgeByKey).lookup k = some e ∧
      F.eq e.metric F.zero = true
  · -- the edge has no metric yet, and all claims that have one agree
    obtain ⟨e, he, hzero⟩ := hopen
    refine (claims_perm horder).foldl_eq' ?_ _
    rintro ⟨a, b, x⟩ hc ⟨a', b', x'⟩ hc' o
    by_cases hk : F.le x F.zero = false ∧ canonicalKey R a b = k
    · by_cases hk' : F.le x' F.zero = false ∧ canonicalKey R a' b' = k
      · obtain rfl : x = x' := htunnels a b x a' b' x' e (mem_claims_iff.1 hc) (mem_claims_iff.1 hc')
          (hk.2.trans hk'.2.symm) (hk.2 ▸ he) hzero hk.1 hk'.1
        simp only [if_pos hk, if_pos hk']
      · simp only [if_neg hk']
    · simp only [if_neg hk]
  · -- nothing is upgraded
    have hkeep : ∀ l : List (String × String × M), l.foldl (fun o c =>
        if F.le c.2.2 F.zero = false ∧ canonicalKey R c.1 c.2.1 = k then
          o.map fun e => if F.eq e.metric F.zero then { e with metric := c.2.2 } else e else o)
        ((layerRadioEdges R F I edgeByKey).lookup k) = (layerRadioEdges R F I edgeByKey).lookup k := by
      intro l
      induction l with
      | nil => rfl
      | cons c l ih =>
          rw [List.foldl_cons]
          have hturn : ((layerRadioEdges R F I edgeByKey).lookup k).map
              (fun e => if F.eq e.metric F.zero then { e with metric := c.2.2 } else e) =
              (layerRadioEdges R F I edgeByKey).lookup k := by
            cases he : (layerRadioEdges R F I edgeByKey).lookup k with
            | none => rfl
            | some e =>
                have hmetric : ¬ F.eq e.metric F.zero = true := fun hzero => hopen ⟨e, he, hzero⟩
                simp only [Option.map_some, if_neg hmetric]
          rw [hturn, ite_self]
          exact ih
    rw [hkeep, hkeep]

theorem addEdge_same (h : Same edgeByKey' edgeByKey) :
    Same (addEdge R F segments known edgeByKey' a b x onMyPath)
      (addEdge R F segments known edgeByKey a b x onMyPath) := by
  intro k
  rw [lookup_addEdge, lookup_addEdge, h k]

theorem applyVisNeighbor_same (h : Same edgeByKey' edgeByKey) (algorithm : ℤ) (n : VisNeighbor) :
    Same (applyVisNeighbor R F I algorithm edgeByKey' n)
      (applyVisNeighbor R F I algorithm edgeByKey n) := by
  unfold applyVisNeighbor
  simp only
  split
  · exact h
  · rw [h]
    cases edgeByKey.lookup (canonicalKey R (resolvePrimary I.primaryByMac (R.toLower n.router))
        (resolvePrimary I.primaryByMac (R.toLower n.neighbor))) with
    | some existing =>
        dsimp only
        split
        · exact h.insert _ _
        · exact h
    | none =>
        dsimp only
        split
        · exact h
        · exact addEdge_same h

theorem layerVisEdges_same (h : Same edgeByKey' edgeByKey) (visDoc : Option VisDoc) :
    Same (layerVisEdges R F I visDoc edgeByKey') (layerVisEdges R F I visDoc edgeByKey) := by
  cases visDoc with
  | none => exact h
  | some doc =>
      exact foldl_same_of_turn h fun m m' h v _ =>
        foldl_same_of_turn h fun m m' h n _ => applyVisNeighbor_same h _ n

/-- The same inputs with other tables to look up in. -/
def EdgeInputs.withTables (I : EdgeInputs M)
    (primaryByMac gatewayByPrimary localBlosGwByRemote : Table String) : EdgeInputs M :=
  { I with
    primaryByMac := primaryByMac
    gatewayByPrimary := gatewayByPrimary
    localBlosGwByRemote := localBlosGwByRemote }

/-- The passes over the edges look the aliases, the gateways and the local ends
up. -/
theorem edgeTable_congr {primaryByMac gatewayByPrimary localBlosGwByRemote : Table String}
    (hprimary : Same primaryByMac I.primaryByMac) (hgateway : Same gatewayByPrimary I.gatewayByPrimary)
    (hlocal : Same localBlosGwByRemote I.localBlosGwByRemote) (visDoc : Option VisDoc) :
    edgeTable R F (I.withTables primaryByMac gatewayByPrimary localBlosGwByRemote) visDoc =
      edgeTable R F I visDoc := by
  have hresolve : resolvePrimary primaryByMac = resolvePrimary I.primaryByMac :=
    funext (resolvePrimary_congr hprimary.get)
  have hseed : seedEdge R F (I.withTables primaryByMac gatewayByPrimary localBlosGwByRemote) =
      seedEdge R F I := by
    funext edgeByKey o
    have hends : originatorEdgeEndpoints R o primaryByMac I.selfMAC =
        originatorEdgeEndpoints R o I.primaryByMac I.selfMAC := by
      unfold originatorEdgeEndpoints
      rw [hresolve]
    have hsuppress : ∀ a b, shouldSuppressSelfPeerEdge a b I.selfPrimary gatewayByPrimary I.gossip =
        shouldSuppressSelfPeerEdge a b I.selfPrimary I.gatewayByPrimary I.gossip := by
      intro a b
      have hget : gatewayByPrimary.get = I.gatewayByPrimary.get := funext hgateway.get
      unfold shouldSuppressSelfPeerEdge
      rw [hget]
    have hredirect : ∀ a b, redirectThroughLocalGateway a b I.selfPrimary localBlosGwByRemote =
        redirectThroughLocalGateway a b I.selfPrimary I.localBlosGwByRemote := by
      intro a b
      unfold redirectThroughLocalGateway
      simp only [hlocal _]
    unfold seedEdge EdgeInputs.withTables
    simp only [hends, hsuppress, hredirect]
  have hvis : ∀ algorithm, applyVisNeighbor R F
      (I.withTables primaryByMac gatewayByPrimary localBlosGwByRemote) algorithm =
      applyVisNeighbor R F I algorithm := by
    intro algorithm
    funext edgeByKey n
    unfold applyVisNeighbor EdgeInputs.withTables
    simp only
    rw [hresolve]
  unfold edgeTable layerVisEdges seedOriginatorEdges
  simp only [hseed, hvis]
  rfl

/-- **The edges** are the same in every order. -/
theorem buildMeshEdges_reordered (hnamed : Named I.gossip) (hworth : F.Worth value)
    (hgossip : I.gossip.Gossiped F) (hradio : RadioUntied R F I)
    (htunnels : TunnelsUntied R F I (layerRadioEdges R F I (seedOriginatorEdges R F I ∅)))
    (visDoc : Option VisDoc) :
    buildMeshEdges (R.reordered order horder) F I visDoc = buildMeshEdges R F I visDoc := by
  have htable : Same (edgeTable (R.reordered order horder) F I visDoc) (edgeTable R F I visDoc) :=
    layerVisEdges_same (R := R) (layerGossipEdges_same horder hworth hgossip hradio htunnels
      (Same.refl _)) visDoc
  have hperm := (htable.range_perm (horder .edges "") (R.order_perm .edges "")).map Prod.snd
  refine List.Perm.eq_of_pairwise
    (fun e e' he he' hle hle' => ?_) (R.sortEdges_sorted _) (R.sortEdges_sorted _)
    ((R.sortEdges_perm _).trans (hperm.trans (R.sortEdges_perm _).symm))
  have hin : ∀ {e}, e ∈ R.sortEdges ((R.range .edges "" (edgeTable R F I visDoc)).map Prod.snd) →
      ∃ key, (edgeTable R F I visDoc).lookup key = some e ∧ EdgeOK I key e := by
    intro e he
    obtain ⟨⟨key, e⟩, hentry, rfl⟩ := List.mem_map.1 ((R.sortEdges_perm _).mem_iff.1 he)
    have hlookup := (mem_range (R.order_perm _ _)).1 hentry
    exact ⟨key, hlookup, edgeTable_all hnamed visDoc key e hlookup⟩
  have hkey : e.key = e'.key := le_antisymm
    (not_lt.1 fun hlt => by simp [(MeshEdge.less_iff e' e).2 hlt] at hle)
    (not_lt.1 fun hlt => by simp [(MeshEdge.less_iff e e').2 hlt] at hle')
  have hfrom : e.fromMac = e'.fromMac := congrArg (fun k => (ofLex (ofLex k).2).1) hkey
  have hto : e.toMac = e'.toMac := congrArg (fun k => (ofLex (ofLex k).2).2) hkey
  obtain ⟨key, hlookup, hok⟩ := hin ((R.sortEdges_perm _).mem_iff.2 (hperm.mem_iff.1
    ((R.sortEdges_perm _).mem_iff.1 he)))
  obtain ⟨key', hlookup', hok'⟩ := hin he'
  have hsame : key = key' := by rw [hok.key_eq, hok'.key_eq, hfrom, hto]
  exact Option.some.inj (hlookup.symm.trans (hsame ▸ hlookup'))

end Edges

/-! ## The merge -/

section Merge

variable {value : M → ℚ} {S : Snapshot}

/-- The primaries the snapshot mentions: those of the vis entries that are not
another's, those of the routes, and this node's. -/
def Snapshot.mentioned (R : Runtime M) (S : Snapshot) : List String :=
  (S.visNodes.filter fun v => !((S.primaryByMac R).lookup v.primary).any (· ≠ v.primary)).map
      (·.primary) ++
    (originatorsByMac R S.origSnap).keys.map (resolvePrimary (S.primaryByMac R)) ++
      if S.selfPrimary R ≠ "" then [S.selfPrimary R] else []

theorem mem_map_foldl_addOriginatorNode {I : NodeInputs} {nodes : List MeshNode}
    {l : List (String × OriginatorEntry)} {mac : String} :
    (∃ n ∈ l.foldl (addOriginatorNode I) nodes, n.mac = mac) ↔
      (∃ n ∈ nodes, n.mac = mac) ∨ ∃ e ∈ l, routed I e = mac := by
  induction l generalizing nodes with
  | nil => simp
  | cons e l ih =>
      rw [List.foldl_cons, ih, List.exists_mem_cons_iff, ← or_assoc]
      refine or_congr_left ?_
      unfold addOriginatorNode
      simp only
      split
      · next hseen =>
        refine ⟨.inl, fun h => h.elim id ?_⟩
        rintro rfl
        obtain ⟨n, hn, hmac⟩ := List.any_eq_true.1 hseen
        exact ⟨n, hn, of_decide_eq_true hmac⟩
      · simp only [List.mem_append, List.mem_singleton, or_and_right, exists_or, exists_eq_left,
          (originatorNode_ok _ _).2]

theorem exists_mem_buildMeshNodes {I : NodeInputs} {visNodes : List VisNode} {mac : String} :
    (∃ n ∈ buildMeshNodes R I visNodes, n.mac = mac) ↔
      ((∃ n ∈ visNodesOf R I visNodes, n.mac = mac) ∨
        ∃ e ∈ R.range .origByMac "" I.origByMac, routed I e = mac) ∨
      (I.selfPrimary ≠ "" ∧ mac = I.selfPrimary) := by
  rw [← mem_map_foldl_addOriginatorNode]
  change _ ↔ (∃ n ∈ routedNodes R I visNodes, n.mac = mac) ∨ _
  unfold buildMeshNodes
  simp only [(R.sortNodes_perm _).mem_iff]
  split
  · next hadd =>
    have hself : ∃ n ∈ [selfNode I], n.mac = I.selfPrimary := ⟨_, List.mem_singleton_self _, rfl⟩
    constructor
    · rintro ⟨n, hn, rfl⟩
      rcases List.mem_append.1 hn with hn | hn
      · exact .inl ⟨n, hn, rfl⟩
      · exact .inr ⟨hadd.1, by rw [List.mem_singleton.1 hn]; rfl⟩
    · rintro (⟨n, hn, rfl⟩ | ⟨-, rfl⟩)
      · exact ⟨n, List.mem_append_left _ hn, rfl⟩
      · obtain ⟨n, hn, hmac⟩ := hself
        exact ⟨n, List.mem_append_right _ hn, hmac⟩
  · next hthere =>
    refine ⟨.inl, fun h => h.elim id ?_⟩
    rintro ⟨hne, rfl⟩
    have hany : (routedNodes R I visNodes).any (·.mac = I.selfPrimary) = true := by
      by_contra hnone
      exact hthere ⟨hne, by simpa using hnone⟩
    obtain ⟨n, hn, hmac⟩ := List.any_eq_true.1 hany
    exact ⟨n, hn, of_decide_eq_true hmac⟩

/-- A MAC has a node where it is mentioned. -/
theorem exists_mem_nodes {m : String} : (∃ n ∈ S.nodes R F, n.mac = m) ↔ m ∈ S.mentioned R := by
  have hmac : (∃ n ∈ S.nodes R F, n.mac = m) ↔
      ∃ n ∈ buildMeshNodes R (S.nodeInputs R F) S.visNodes, n.mac = m := by
    constructor
    · rintro ⟨n, hn, rfl⟩
      obtain ⟨n', hn', hsame, -⟩ := mem_nodes hn
      exact ⟨n', hn', hsame.symm⟩
    · rintro ⟨n', hn', rfl⟩
      obtain ⟨n, hn, hsame, -⟩ := mem_nodes_of_mem hn'
      exact ⟨n, hn, hsame⟩
  have hroutes : (∃ e ∈ R.range .origByMac "" (S.nodeInputs R F).origByMac,
      routed (S.nodeInputs R F) e = m) ↔
      m ∈ (originatorsByMac R S.origSnap).keys.map (resolvePrimary (S.primaryByMac R)) := by
    rw [List.mem_map]
    constructor
    · rintro ⟨⟨k, entry⟩, he, rfl⟩
      have hlookup : (originatorsByMac R S.origSnap).lookup k = some entry :=
        (mem_range (R.order_perm _ _)).1 he
      exact ⟨k, AList.mem_keys.1 (AList.lookup_isSome.1 (by rw [hlookup]; rfl)), rfl⟩
    · rintro ⟨k, hk, rfl⟩
      obtain ⟨entry, hentry⟩ := Option.isSome_iff_exists.1
        (AList.lookup_isSome.2 (AList.mem_keys.2 hk))
      exact ⟨(k, entry), (mem_range (R.order_perm _ _)).2 hentry, rfl⟩
  have hvis : (∃ n ∈ visNodesOf R (S.nodeInputs R F) S.visNodes, n.mac = m) ↔
      m ∈ (S.visNodes.filter fun v => !((S.primaryByMac R).lookup v.primary).any
        (· ≠ v.primary)).map (·.primary) := by
    unfold visNodesOf
    simp only [List.mem_map, exists_exists_and_eq_and, (visNode_ok _).2]
    rfl
  have hself : (S.selfPrimary R ≠ "" ∧ m = S.selfPrimary R) ↔
      m ∈ if S.selfPrimary R ≠ "" then [S.selfPrimary R] else [] := by
    split
    · next hne => simp [hne]
    · next hempty => simp [hempty]
  rw [hmac, exists_mem_buildMeshNodes, hvis, hroutes, Snapshot.mentioned, List.mem_append,
    List.mem_append, ← hself]
  rfl

/-- **What is rendered** is what is mentioned. -/
theorem mem_renderedPrimaries {mac : String} :
    mac ∈ renderedPrimaries R (S.nodes R F) ↔ mac ∈ (S.mentioned R).map R.toLower := by
  unfold renderedPrimaries
  simp only [List.mem_map, ← exists_mem_nodes (F := F)]
  constructor
  · rintro ⟨n, hn, rfl⟩
    exact ⟨n.mac, ⟨n, hn, rfl⟩, rfl⟩
  · rintro ⟨m, ⟨n, hn, rfl⟩, rfl⟩
    exact ⟨n, hn, rfl⟩

/-- What the passes over the edges read, of what the snapshot mentions. -/
def Snapshot.linkInputs (R : Runtime M) (F : Metrics M) (S : Snapshot) : EdgeInputs M :=
  { S.edgeInputs R F with knownPrimaries := (S.mentioned R).map R.toLower }

theorem drawn_linkInputs {a b : String} :
    Drawn R (S.linkInputs R F) a b ↔ Drawn R (S.edgeInputs R F) a b := by
  unfold Drawn Joins
  change _ ∧ _ ∧ _ ∈ (S.mentioned R).map R.toLower ∧ _ ∈ (S.mentioned R).map R.toLower ↔ _
  rw [← mem_renderedPrimaries (F := F), ← mem_renderedPrimaries (F := F)]
  rfl

theorem addEdge_linkInputs {segments : Table Segment} :
    addEdge R F segments (S.linkInputs R F).knownPrimaries =
      addEdge R F segments (S.edgeInputs R F).knownPrimaries := by
  funext edgeByKey a b x onMyPath
  have hknown : ∀ mac, mac ∈ (S.linkInputs R F).knownPrimaries ↔
      mac ∈ (S.edgeInputs R F).knownPrimaries := fun mac => mem_renderedPrimaries.symm
  unfold addEdge
  simp only [hknown]

theorem seedOriginatorEdges_linkInputs : seedOriginatorEdges R F (S.linkInputs R F) =
    seedOriginatorEdges R F (S.edgeInputs R F) := by
  funext edgeByKey
  unfold seedOriginatorEdges seedEdge
  rw [addEdge_linkInputs]
  rfl

theorem layerRadioEdges_linkInputs : layerRadioEdges R F (S.linkInputs R F) =
    layerRadioEdges R F (S.edgeInputs R F) := by
  funext edgeByKey
  unfold layerRadioEdges gossipEdge
  rw [addEdge_linkInputs]
  rfl

/-- **No choice of the merge has a tie**: none between the primaries that stay
for a MAC, between the gateways of a component, between the local ends of a
remote primary, between the routes to a primary the vis document leaves out,
and none between the metrics two records claim for one link. -/
structure Untied (R : Runtime M) (F : Metrics M) (value : M → ℚ) (S : Snapshot) : Prop where
  aliases : AliasesApart S.visNodes (groupingHostnames R S.visNodes
    (macPrimaries R S.visNodes S.origSnap) (originatorsByMac R S.origSnap) S.batHosts
      (S.selfMAC R) S.origSnap.selfHostname) (S.selfMAC R)
  gateways : GatewaysUntied (S.gossip R F)
    (localMembersOf R (S.gossip R F) (S.selfPrimary R)) (S.selfPrimary R)
  redirects : RedirectsUntied value (S.gossip R F) (S.classes R F).1 (S.selfPrimary R)
  originators : OriginatorsUntied R (S.nodeInputs R F) S.visNodes
  nodes : NodesUntied R (S.nodeInputs R F) S.visNodes
  radio : RadioUntied R F (S.linkInputs R F)
  tunnels : TunnelsUntied R F (S.linkInputs R F)
    (layerRadioEdges R F (S.linkInputs R F) (seedOriginatorEdges R F (S.linkInputs R F) ∅))

section Parts

variable (huntied : Untied R F value S)

include huntied

theorem primaryByMac_reordered :
    Same (S.primaryByMac (R.reordered order horder)) (S.primaryByMac R) :=
  foldHostnameAliases_same rfl huntied.aliases horder

theorem selfPrimary_reordered : S.selfPrimary (R.reordered order horder) = S.selfPrimary R :=
  (primaryByMac_reordered horder huntied).get _

/-- The gossip view rests on the aliases alone. -/
theorem gossip_reordered : S.gossip (R.reordered order horder) F = S.gossip R F := by
  have hsame := primaryByMac_reordered horder huntied
  have hresolve : resolvePrimary (S.primaryByMac (R.reordered order horder)) =
      resolvePrimary (S.primaryByMac R) := funext (resolvePrimary_congr hsame.get)
  have hget : (S.primaryByMac (R.reordered order horder)).get = (S.primaryByMac R).get :=
    funext hsame.get
  unfold Snapshot.gossip buildGossipView buildHostnameIndex viewEntry classifyGossipNeighbors
  rw [hresolve, hget]
  rfl

theorem classes_reordered :
    (S.classes (R.reordered order horder) F).1 = (S.classes R F).1 ∧
      Same (S.classes (R.reordered order horder) F).2 (S.classes R F).2 := by
  have hclasses := classifyNodesWithGossip_same horder (gossip_named S) huntied.gateways
    (primaryByMac_reordered horder huntied).get S.origSnap (S.selfMAC R)
  unfold Snapshot.classes
  rw [gossip_reordered horder huntied, selfPrimary_reordered horder huntied]
  simp only
  split
  · exact ⟨congrArg (AList.insert (S.selfPrimary R) Segment.segmentLocal) hclasses.1,
      hclasses.2.erase _⟩
  · exact hclasses

theorem nodes_reordered : S.nodes (R.reordered order horder) F = S.nodes R F := by
  have hprimary := primaryByMac_reordered horder huntied
  obtain ⟨hsegments, hgateways⟩ := classes_reordered horder huntied
  have hinputs : S.nodeInputs (R.reordered order horder) F = (S.nodeInputs R F).withTables
      (S.primaryByMac (R.reordered order horder)) (S.classes (R.reordered order horder) F).2 := by
    unfold Snapshot.nodeInputs NodeInputs.withTables
    rw [hsegments, selfPrimary_reordered horder huntied]
    rfl
  have hbuilt : buildMeshNodes (R.reordered order horder)
      (S.nodeInputs (R.reordered order horder) F) S.visNodes =
      buildMeshNodes R (S.nodeInputs R F) S.visNodes := by
    rw [hinputs, buildMeshNodes_congr (R := R.reordered order horder) (I := S.nodeInputs R F) hprimary
      hgateways]
    exact buildMeshNodes_reordered horder huntied.originators huntied.nodes
  have hresolve : resolvePrimary (S.primaryByMac (R.reordered order horder)) =
      resolvePrimary (S.primaryByMac R) := funext (resolvePrimary_congr hprimary.get)
  unfold Snapshot.nodes
  rw [hbuilt, gossip_reordered horder huntied, Snapshot.gossipGwMacs, Snapshot.canonicalGwMacs,
    gossip_reordered horder huntied, hsegments, canonicalizeMacSet, hresolve]
  rfl

theorem edges_reordered (hworth : F.Worth value) :
    buildMeshEdges (R.reordered order horder) F (S.edgeInputs (R.reordered order horder) F)
      S.visDoc = buildMeshEdges R F (S.edgeInputs R F) S.visDoc := by
  have hprimary := primaryByMac_reordered horder huntied
  obtain ⟨hsegments, hgateways⟩ := classes_reordered horder huntied
  have hgossip := gossip_reordered (F := F) horder huntied
  have hself := selfPrimary_reordered horder huntied
  have hresolve : resolvePrimary (S.primaryByMac (R.reordered order horder)) =
      resolvePrimary (S.primaryByMac R) := funext (resolvePrimary_congr hprimary.get)
  have hlocal : Same (localBlosGatewayByRemote (R.reordered order horder) F
        (S.gossip (R.reordered order horder) F) (S.classes (R.reordered order horder) F).1
        (S.canonicalGwMacs (R.reordered order horder)) (S.gossipGwMacs (R.reordered order horder) F)
        (S.selfPrimary (R.reordered order horder)))
      (S.edgeInputs R F).localBlosGwByRemote := by
    rw [Snapshot.canonicalGwMacs, Snapshot.gossipGwMacs, canonicalizeMacSet, hresolve, hgossip,
      hsegments, hself]
    exact localBlosGatewayByRemote_same horder hworth (gossip_gossiped S) huntied.redirects _ _
  have hinputs : S.edgeInputs (R.reordered order horder) F = (S.edgeInputs R F).withTables
      (S.primaryByMac (R.reordered order horder)) (S.classes (R.reordered order horder) F).2
      (S.edgeInputs (R.reordered order horder) F).localBlosGwByRemote := by
    have hnodes := nodes_reordered (F := F) horder huntied
    unfold Snapshot.edgeInputs EdgeInputs.withTables
    simp only [hnodes, hsegments, hself, hgossip]
    rfl
  have htable := edgeTable_congr (R := R.reordered order horder) (F := F) (I := S.edgeInputs R F)
    hprimary hgateways hlocal S.visDoc
  have hradio : RadioUntied R F (S.edgeInputs R F) := fun a b x a' b' x' hx hx' hab hab' =>
    huntied.radio a b x a' b' x' hx hx' (drawn_linkInputs.2 hab) (drawn_linkInputs.2 hab')
  have htunnels : TunnelsUntied R F (S.edgeInputs R F) (layerRadioEdges R F (S.edgeInputs R F)
      (seedOriginatorEdges R F (S.edgeInputs R F) ∅)) := by
    have hlink := huntied.tunnels
    rw [seedOriginatorEdges_linkInputs, layerRadioEdges_linkInputs] at hlink
    exact hlink
  have hbuilt : buildMeshEdges (R.reordered order horder) F
      (S.edgeInputs (R.reordered order horder) F) S.visDoc =
      buildMeshEdges (R.reordered order horder) F (S.edgeInputs R F) S.visDoc := by
    unfold buildMeshEdges
    rw [hinputs]
    exact congrArg (fun t => (R.reordered order horder).sortEdges
      (((R.reordered order horder).range .edges "" t).map (·.2))) htable
  rw [hbuilt]
  exact buildMeshEdges_reordered horder (gossip_named S) hworth (gossip_gossiped S) hradio htunnels
    S.visDoc

end Parts

end Merge

/-! ## A link with two metrics -/

/-- Metrics as exact numbers, where the vis document has none. -/
def Metrics.exact : Metrics ℚ where
  zero := 0
  eq x y := decide (x = y)
  lt x y := decide (x < y)
  le x y := decide (x ≤ y)
  parse _ := 0
  mbps n := n / 1000
  inverseTQ n := 255 / n

theorem worth_exact : Metrics.exact.Worth id where
  lt _ _ _ _ := decide_eq_true_iff
  le _ _ _ _ := decide_eq_true_iff
  eq _ _ _ _ := decide_eq_true_iff
  inj _ _ _ _ h := h
  zero_le := by
    rintro x (rfl | ⟨n, rfl | rfl⟩)
    · exact le_rfl
    · exact div_nonneg (Nat.cast_nonneg n) (by decide +kernel)
    · exact div_nonneg (by decide +kernel) (Nat.cast_nonneg n)

/-- Two nodes in one vis document, each with a record of its link to the
other; the first is this one. -/
def linkedPair (there back : ℕ) : Snapshot where
  visDoc := some ⟨[⟨"aa", [], []⟩, ⟨"bb", [], []⟩], 15⟩
  origSnap := ⟨"aa", "", "BATMAN_V", []⟩
  batHosts := none
  neighborsProvider := some
    { lookup mac :=
        if mac = "aa" then some ⟨some ⟨15, [⟨"bb", "wlan0", false, there, 0⟩], [], none⟩⟩
        else if mac = "bb" then some ⟨some ⟨15, [⟨"aa", "wlan0", false, back, 0⟩], [], none⟩⟩
        else none
      lookupByHostname _ := none }
  gatewayMacs := []

/-- Every walk the other way round. -/
abbrev backwards : Site → String → List String → List String := fun _ _ keys => keys.reverse

theorem backwards_perm (site : Site) (about : String) (keys : List String) :
    (backwards site about keys).Perm keys := List.reverse_perm keys

/-- The same where the two ends claim one metric. -/
theorem untied_linkedPair : Untied (.plain ℚ) .exact id (linkedPair 10000 10000) := by
  have hradio : claims (.plain ℚ) .gossipRF .gossipRFNeighbors
      ((linkedPair 10000 10000).gossip (.plain ℚ) .exact).rfByPrimary =
      [("bb", "aa", 10), ("aa", "bb", 10)] := by decide +kernel
  have htunnels : claims (.plain ℚ) .gossipBLOS .gossipBLOSNeighbors
      ((linkedPair 10000 10000).gossip (.plain ℚ) .exact).blosByPrimary = [] := by decide +kernel
  have hblos : ∀ a b x, (((linkedPair 10000 10000).gossip (.plain ℚ) .exact).blosOf a).lookup b ≠
      some x := by
    intro a b x h
    have hclaim : (a, b, x) ∈ claims (.plain ℚ) .gossipBLOS .gossipBLOSNeighbors
        ((linkedPair 10000 10000).gossip (.plain ℚ) .exact).blosByPrimary := mem_claims_iff.2 h
    rw [htunnels] at hclaim
    cases hclaim
  have hkeys : ∀ m, (((linkedPair 10000 10000).gossip (.plain ℚ) .exact).blosOf m).keys = [] := by
    refine fun m => List.eq_nil_iff_forall_not_mem.2 fun k hk => ?_
    obtain ⟨x, hx⟩ := Option.isSome_iff_exists.1 (AList.lookup_isSome.2 (AList.mem_keys.2 hk))
    exact hblos m k x hx
  have hroutes : ∀ m, (((linkedPair 10000 10000).gossip (.plain ℚ)
      .exact).originatorsByPrimary.lookup m).getD [] = [] := by
    have hall : ∀ e ∈ ((linkedPair 10000 10000).gossip (.plain ℚ)
        .exact).originatorsByPrimary.entries, e.2 = [] := by decide +kernel
    intro m
    cases hm : ((linkedPair 10000 10000).gossip (.plain ℚ) .exact).originatorsByPrimary.lookup m with
    | none => rfl
    | some routes => exact hall _ (AList.mem_lookup_iff.1 hm)
  refine ⟨?_, fun m m' _ _ _ => ⟨?_, fun _ => ?_, fun _ => ?_⟩, ?_, ?_, ?_, ?_, ?_⟩
  · have hnames : groupingHostnames (.plain ℚ) (linkedPair 10000 10000).visNodes
        (macPrimaries (.plain ℚ) (linkedPair 10000 10000).visNodes (linkedPair 10000 10000).origSnap)
        (originatorsByMac (.plain ℚ) (linkedPair 10000 10000).origSnap) none
        ((linkedPair 10000 10000).selfMAC (.plain ℚ)) "" = ∅ :=
      AList.ext (by decide +kernel)
    rintro p p' mac ⟨-, q, ⟨name, hp, -⟩, -⟩
    change (groupingHostnames (.plain ℚ) _ _ _ none _ "").lookup p = some name at hp
    rw [hnames, AList.lookup_empty] at hp
    cases hp
  · simp [Direct, hkeys]
  · simp [Chained, hopsMaxWalk, reachableViaBLOSChain, chainLevel, hroutes]
  · simp [Tunneled, hkeys]
  · exact ⟨fun r e e' he => absurd he.2 (hblos _ _ _), fun r e e' he => absurd he.2 (hblos _ _ _)⟩
  · intro mac entry mac' entry' h
    change (∅ : Table OriginatorEntry).lookup mac = some entry at h
    rw [AList.lookup_empty] at h
    cases h
  · unfold NodesUntied
    decide +kernel
  · intro a b x a' b' x' hx hx' _ _ _
    have hclaim : (a, b, x) ∈ claims (.plain ℚ) .gossipRF .gossipRFNeighbors
        ((linkedPair 10000 10000).gossip (.plain ℚ) .exact).rfByPrimary := mem_claims_iff.2 hx
    have hclaim' : (a', b', x') ∈ claims (.plain ℚ) .gossipRF .gossipRFNeighbors
        ((linkedPair 10000 10000).gossip (.plain ℚ) .exact).rfByPrimary := mem_claims_iff.2 hx'
    rw [hradio] at hclaim hclaim'
    have hboth : ∀ c ∈ [("bb", "aa", (10 : ℚ)), ("aa", "bb", 10)],
        ∀ c' ∈ [("bb", "aa", (10 : ℚ)), ("aa", "bb", 10)],
        canonicalPair (.plain ℚ) c.1 c.2.1 = canonicalPair (.plain ℚ) c'.1 c'.2.1 ∧
          c.2.2 = c'.2.2 := by decide +kernel
    obtain ⟨hpair, hmetric⟩ := hboth _ hclaim _ hclaim'
    exact ⟨hpair, .inl hmetric⟩
  · exact fun a b x a' b' x' e hx => absurd hx (hblos _ _ _)

end Topology

end OpenManet
