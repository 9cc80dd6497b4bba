import OpenManet.Topology.Gossip
/-!
# The mesh topology: nodes, edges and the merge

The rest of `mesh_topology.go`. Nodes come from the vis document, then from
the originators it does not mention, then from this node itself; edges from
the originator table, then from gossip, then from the vis document, one for
each pair of MACs.
-/

namespace OpenManet

namespace Topology

section

variable {M : Type} (R : Runtime M) (F : Metrics M)

/-! ## Nodes -/

/-- `hopsUnknown`. -/
def hopsUnknown : ℤ := 99

/-- `applySegment`. -/
def applySegment (node : MeshNode) (segmentByPrimary : Table Segment)
    (gatewayByPrimary : Table String) (primary : String) : MeshNode :=
  let segment := (segmentByPrimary.lookup primary).getD .segmentLocal
  { node with
    segment := segment
    remoteGatewayMac :=
      match gatewayByPrimary.lookup primary with
      | some gw => if segment = .segmentRemote then gw else node.remoteGatewayMac
      | none => node.remoteGatewayMac }

/-- `applyOverlay`. -/
def applyOverlay (node : MeshNode) (entry : Option OriginatorEntry) : MeshNode :=
  if node.isSelf then { node with hopsFromSelf := 0 }
  else
    match entry with
    | some entry => { node with hopsFromSelf := entry.hops, myHardIfname := entry.hardIfname }
    | none => { node with hopsFromSelf := hopsUnknown }

/-- A node with nothing on it but its MAC. -/
def MeshNode.bare (mac : String) (secondaryMacs : List String) (isSelf : Bool) : MeshNode where
  mac := mac
  hostname := ""
  secondaryMacs := secondaryMacs
  isSelf := isSelf
  segment := .segmentLocal
  remoteGatewayMac := ""
  hopsFromSelf := 0
  myHardIfname := ""
  isGateway := false
  gossipStale := false
  gossipAgeSeconds := 0

/-- What the three sources of nodes read. -/
structure NodeInputs where
  origByMac : Table OriginatorEntry
  batHosts : Option BatHosts
  segmentByPrimary : Table Segment
  gatewayByPrimary : Table String
  selfPrimary : String
  selfHostname : String
  primaryByMac : Table String

/-- The node of a vis entry. -/
def visNode (I : NodeInputs) (v : VisNode) : MeshNode :=
  let isSelf := decide (v.primary = I.selfPrimary ∧ I.selfPrimary ≠ "")
  let node := applyOverlay (applySegment (.bare v.primary v.secondary isSelf) I.segmentByPrimary
    I.gatewayByPrimary v.primary) (lookupOrigEntry v I.origByMac)
  { node with
    hostname := if isSelf then stripIfaceSuffix I.selfHostname
      else lookupHostname R v (lookupOrigEntry v I.origByMac) I.batHosts }

/-- The node of an originator the vis document does not mention. -/
def originatorNode (I : NodeInputs) (primary : String) (entry : OriginatorEntry) : MeshNode :=
  let isSelf := decide (primary = I.selfPrimary ∧ I.selfPrimary ≠ "")
  let node := applyOverlay (applySegment (.bare primary [] isSelf) I.segmentByPrimary
    I.gatewayByPrimary primary) (some entry)
  { node with hostname := stripIfaceSuffix entry.origHostname }

/-- The node of this node, where nothing else mentions it. -/
def selfNode (I : NodeInputs) : MeshNode :=
  { MeshNode.bare I.selfPrimary [] true with hostname := stripIfaceSuffix I.selfHostname }

/-- The nodes of the vis entries that are not another's. -/
def visNodesOf (I : NodeInputs) (visNodes : List VisNode) : List MeshNode :=
  (visNodes.filter fun v => !(I.primaryByMac.lookup v.primary).any (· ≠ v.primary)).map (visNode R I)

/-- One originator's turn in `buildMeshNodes`. A primary has been seen when
a node has its MAC. -/
def addOriginatorNode (I : NodeInputs) (nodes : List MeshNode) (entry : String × OriginatorEntry) :
    List MeshNode :=
  let primary := resolvePrimary I.primaryByMac entry.1
  if nodes.any (·.mac = primary) then nodes else nodes ++ [originatorNode I primary entry.2]

/-- The nodes of the vis entries and of the originators. -/
def routedNodes (I : NodeInputs) (visNodes : List VisNode) : List MeshNode :=
  (R.range .origByMac "" I.origByMac).foldl (addOriginatorNode I) (visNodesOf R I visNodes)

/-- `buildMeshNodes`. -/
def buildMeshNodes (I : NodeInputs) (visNodes : List VisNode) : List MeshNode :=
  let nodes := routedNodes R I visNodes
  R.sortNodes
    (if I.selfPrimary ≠ "" ∧ !nodes.any (·.mac = I.selfPrimary) then nodes ++ [selfNode I]
      else nodes)

/-- `applyGossipState`. -/
def applyGossipState (gossip : GossipView M) (n : MeshNode) : MeshNode :=
  let primary := R.toLower n.mac
  if n.isSelf then n
  else
    { n with
      gossipStale := n.gossipStale || decide (primary ∈ gossip.staleByPrimary)
      gossipAgeSeconds := (gossip.ageByPrimary.lookup primary).getD ageMissing }

/-- `applyGatewayFlag`. -/
def applyGatewayFlag (gatewayMacs gossipGwMacs : List String) (n : MeshNode) : MeshNode :=
  let mac := R.toLower n.mac
  if mac ≠ "" ∧ (mac ∈ gatewayMacs ∨ mac ∈ gossipGwMacs) then { n with isGateway := true } else n

/-- `gossipCoverage`. -/
def gossipCoverage (gossip : GossipView M) (nodes : List MeshNode) : GossipCoverage :=
  let others := nodes.filter (!·.isSelf)
  ⟨others.countP fun n => decide (R.toLower n.mac ∈ gossip.rfByPrimary), others.length⟩

/-- `renderedPrimaries`. -/
def renderedPrimaries (nodes : List MeshNode) : List String := nodes.map fun n => R.toLower n.mac

/-! ## Edges -/

/-- `canonicalPair`. -/
def canonicalPair (a b : String) : String × String :=
  if R.toLower a < R.toLower b then (R.toLower a, R.toLower b) else (R.toLower b, R.toLower a)

/-- The key of a pair. -/
def pairKey (pair : String × String) : String := pair.1 ++ "|" ++ pair.2

/-- `canonicalKey`. -/
def canonicalKey (a b : String) : String := pairKey (canonicalPair R a b)

/-- `addEdge`. -/
def addEdge (segmentByPrimary : Table Segment) (knownPrimaries : List String)
    (edgeByKey : Table (MeshEdge M)) (a b : String) (metric : M) (onMyPath : Bool) :
    Table (MeshEdge M) :=
  let pair := canonicalPair R a b
  if pair.1 = pair.2 then edgeByKey
  else if pair.1 ∉ knownPrimaries ∨ pair.2 ∉ knownPrimaries then edgeByKey
  else
    match edgeByKey.lookup (pairKey pair) with
    | some existing =>
      edgeByKey.insert (pairKey pair)
        { existing with
          onMyPath := existing.onMyPath || onMyPath
          metric := if !F.eq metric F.zero && F.eq existing.metric F.zero then metric
            else existing.metric }
    | none =>
      edgeByKey.insert (pairKey pair)
        { fromMac := pair.1
          toMac := pair.2
          metric := metric
          blos := decide (segmentOrDefault segmentByPrimary pair.1 ≠
            segmentOrDefault segmentByPrimary pair.2)
          onMyPath := onMyPath }

/-- `originatorEdgeEndpoints`. -/
def originatorEdgeEndpoints (o : OriginatorEntry) (primaryByMac : Table String)
    (selfMAC : String) : Option (String × String) :=
  let origMAC := R.toLower o.origMAC
  let nextMAC := R.toLower o.nextHopMAC
  if origMAC = "" then none
  else if nextMAC = "" ∨ nextMAC = origMAC then
    if selfMAC = "" ∨ selfMAC = origMAC then none
    else some (resolvePrimary primaryByMac selfMAC, resolvePrimary primaryByMac origMAC)
  else some (resolvePrimary primaryByMac nextMAC, resolvePrimary primaryByMac origMAC)

/-- `shouldSuppressSelfPeerEdge`. -/
def shouldSuppressSelfPeerEdge (a b selfPrimary : String) (gatewayByPrimary : Table String)
    (gossip : GossipView M) : Bool :=
  let behind := fun peer =>
    let gw := gatewayByPrimary.get peer
    decide (gw ≠ "" ∧ gw ≠ peer ∧ peer ∈ gossip.rfOf gw)
  if selfPrimary = "" then false
  else if selfPrimary = a then behind b
  else if selfPrimary = b then behind a
  else false

/-- `redirectThroughLocalGateway`. -/
def redirectThroughLocalGateway (a b selfPrimary : String) (localBlosGwByRemote : Table String) :
    String × String :=
  let gwOf := fun remote =>
    (localBlosGwByRemote.lookup remote).filter fun gw => gw ≠ "" ∧ gw ≠ remote
  if selfPrimary = "" then (a, b)
  else if a = selfPrimary then ((gwOf b).getD a, b)
  else if b = selfPrimary then (a, (gwOf a).getD b)
  else (a, b)

/-- `isBetterMetric`. -/
def isBetterMetric (newMetric oldMetric : M) (algorithm : ℤ) : Bool :=
  if F.eq newMetric F.zero then false
  else if F.eq oldMetric F.zero then true
  else if algorithm = 15 then F.lt oldMetric newMetric
  else F.lt newMetric oldMetric

/-- What the passes over the edges read. -/
structure EdgeInputs (M : Type) where
  origs : List OriginatorEntry
  primaryByMac : Table String
  segmentByPrimary : Table Segment
  gatewayByPrimary : Table String
  selfMAC : String
  selfPrimary : String
  gossip : GossipView M
  knownPrimaries : List String
  localBlosGwByRemote : Table String

variable (I : EdgeInputs M)

/-- One originator's turn in `seedOriginatorEdges`. -/
def seedEdge (edgeByKey : Table (MeshEdge M)) (o : OriginatorEntry) : Table (MeshEdge M) :=
  match originatorEdgeEndpoints R o I.primaryByMac I.selfMAC with
  | none => edgeByKey
  | some (a, b) =>
    if shouldSuppressSelfPeerEdge a b I.selfPrimary I.gatewayByPrimary I.gossip then edgeByKey
    else
      let ends := redirectThroughLocalGateway a b I.selfPrimary I.localBlosGwByRemote
      addEdge R F I.segmentByPrimary I.knownPrimaries edgeByKey ends.1 ends.2 F.zero true

/-- `seedOriginatorEdges`. -/
def seedOriginatorEdges (edgeByKey : Table (MeshEdge M)) : Table (MeshEdge M) :=
  I.origs.foldl (seedEdge R F I) edgeByKey

/-- One claim's turn in the first loop of `layerGossipEdges`. -/
def gossipEdge (primary : String) (edgeByKey : Table (MeshEdge M)) (claim : String × M) :
    Table (MeshEdge M) :=
  if segmentOrDefault I.segmentByPrimary primary ≠ segmentOrDefault I.segmentByPrimary claim.1 then
    edgeByKey
  else addEdge R F I.segmentByPrimary I.knownPrimaries edgeByKey primary claim.1 claim.2 false

/-- `upgradeEdgeMetric`. -/
def upgradeEdgeMetric (edgeByKey : Table (MeshEdge M)) (a b : String) (metric : M) :
    Table (MeshEdge M) :=
  if F.le metric F.zero then edgeByKey
  else
    match edgeByKey.lookup (canonicalKey R a b) with
    | none => edgeByKey
    | some existing =>
      if F.eq existing.metric F.zero then
        edgeByKey.insert (canonicalKey R a b) { existing with metric := metric }
      else edgeByKey

/-- `layerGossipEdges`. -/
def layerGossipEdges (edgeByKey : Table (MeshEdge M)) : Table (MeshEdge M) :=
  let edgeByKey := (R.range .gossipRF "" I.gossip.rfByPrimary).foldl (fun edgeByKey (primary, rfSet) =>
    (R.range .gossipRFNeighbors primary rfSet).foldl (gossipEdge R F I primary) edgeByKey) edgeByKey
  (R.range .gossipBLOS "" I.gossip.blosByPrimary).foldl (fun edgeByKey (primary, blosSet) =>
    (R.range .gossipBLOSNeighbors primary blosSet).foldl (fun edgeByKey (neighbor, metric) =>
      upgradeEdgeMetric R F edgeByKey primary neighbor metric) edgeByKey) edgeByKey

/-- `applyVisNeighbor`. -/
def applyVisNeighbor (algorithm : ℤ) (edgeByKey : Table (MeshEdge M)) (n : VisNeighbor) :
    Table (MeshEdge M) :=
  let aMAC := R.toLower n.router
  let bMAC := R.toLower n.neighbor
  let a := resolvePrimary I.primaryByMac aMAC
  let b := resolvePrimary I.primaryByMac bMAC
  let metric := F.parse n.metric
  if aMAC = "" ∨ bMAC = "" ∨ aMAC = bMAC then edgeByKey
  else
    match edgeByKey.lookup (canonicalKey R a b) with
    | some existing =>
      if isBetterMetric F metric existing.metric algorithm then
        edgeByKey.insert (canonicalKey R a b) { existing with metric := metric }
      else edgeByKey
    | none =>
      if segmentOrDefault I.segmentByPrimary a ≠ segmentOrDefault I.segmentByPrimary b then edgeByKey
      else addEdge R F I.segmentByPrimary I.knownPrimaries edgeByKey a b metric false

/-- `layerVisEdges`. -/
def layerVisEdges (visDoc : Option VisDoc) (edgeByKey : Table (MeshEdge M)) :
    Table (MeshEdge M) :=
  match visDoc with
  | none => edgeByKey
  | some doc =>
    doc.vis.foldl (fun edgeByKey v =>
      v.neighbors.foldl (applyVisNeighbor R F I doc.algorithm) edgeByKey) edgeByKey

/-- `edgeByKey`, when all passes are done. -/
def edgeTable (visDoc : Option VisDoc) : Table (MeshEdge M) :=
  layerVisEdges R F I visDoc (layerGossipEdges R F I (seedOriginatorEdges R F I ∅))

/-- `buildMeshEdges`. -/
def buildMeshEdges (visDoc : Option VisDoc) : List (MeshEdge M) :=
  R.sortEdges ((R.range .edges "" (edgeTable R F I visDoc)).map (·.2))

end

/-! ## The merge -/

/-- The inputs of `mergeMeshTopology`. -/
structure Snapshot where
  visDoc : Option VisDoc
  origSnap : OriginatorTopology
  batHosts : Option BatHosts
  neighborsProvider : Option MeshNeighborsProvider
  gatewayMacs : List String

section

variable {M : Type} (R : Runtime M) (F : Metrics M) (S : Snapshot)

/-- `visNodes`. -/
def Snapshot.visNodes : List VisNode := (S.visDoc.map (·.vis)).getD []

/-- `selfMAC`. -/
def Snapshot.selfMAC : String := R.toLower S.origSnap.selfMAC

/-- `primaryByMac`, when the aliases are folded. -/
def Snapshot.primaryByMac : Table String :=
  foldHostnameAliases R S.visNodes (macPrimaries R S.visNodes S.origSnap)
    (originatorsByMac R S.origSnap) S.batHosts (S.selfMAC R) S.origSnap.selfHostname

/-- `selfPrimary`. -/
def Snapshot.selfPrimary : String := (S.primaryByMac R).get (S.selfMAC R)

/-- `gossip`. -/
def Snapshot.gossip : GossipView M :=
  buildGossipView R F S.neighborsProvider S.visNodes (S.primaryByMac R)
    (buildHostnameIndex R S.visNodes (originatorsByMac R S.origSnap) S.batHosts (S.primaryByMac R)
      (S.selfMAC R) S.origSnap.selfHostname)

/-- `segmentByPrimary` and `gatewayByPrimary`: this node is always local. -/
def Snapshot.classes : Table Segment × Table String :=
  let classes := classifyNodesWithGossip R S.origSnap (S.primaryByMac R) (S.selfMAC R)
    (S.selfPrimary R) (S.gossip R F)
  if S.selfPrimary R ≠ "" then
    (classes.1.insert (S.selfPrimary R) .segmentLocal, classes.2.erase (S.selfPrimary R))
  else classes

/-- What the nodes are built from. -/
def Snapshot.nodeInputs : NodeInputs where
  origByMac := originatorsByMac R S.origSnap
  batHosts := S.batHosts
  segmentByPrimary := (S.classes R F).1
  gatewayByPrimary := (S.classes R F).2
  selfPrimary := S.selfPrimary R
  selfHostname := S.origSnap.selfHostname
  primaryByMac := S.primaryByMac R

/-- `canonicalGwMacs`. -/
def Snapshot.canonicalGwMacs : List String := canonicalizeMacSet S.gatewayMacs (S.primaryByMac R)

/-- `gossipGwMacs`. -/
def Snapshot.gossipGwMacs : List String := gossipBlosGateways (S.gossip R F) (S.classes R F).1

/-- `nodes`, with the gossip state and the gateway flag on them. -/
def Snapshot.nodes : List MeshNode :=
  (buildMeshNodes R (S.nodeInputs R F) S.visNodes).map fun n =>
    applyGatewayFlag R (S.canonicalGwMacs R) (S.gossipGwMacs R F)
      (applyGossipState R (S.gossip R F) n)

/-- What the edges are built from. -/
def Snapshot.edgeInputs : EdgeInputs M where
  origs := S.origSnap.originators
  primaryByMac := S.primaryByMac R
  segmentByPrimary := (S.classes R F).1
  gatewayByPrimary := (S.classes R F).2
  selfMAC := S.selfMAC R
  selfPrimary := S.selfPrimary R
  gossip := S.gossip R F
  knownPrimaries := renderedPrimaries R (S.nodes R F)
  localBlosGwByRemote := localBlosGatewayByRemote R F (S.gossip R F) (S.classes R F).1
    (S.canonicalGwMacs R) (S.gossipGwMacs R F) (S.selfPrimary R)

/-- `mergeMeshTopology`. -/
def mergeMeshTopology : MeshTopology M where
  selfMac := S.origSnap.selfMAC
  selfHostname := S.origSnap.selfHostname
  algorithm := S.origSnap.algorithm
  nodes := S.nodes R F
  edges := buildMeshEdges R F (S.edgeInputs R F) S.visDoc
  gossipCoverage := gossipCoverage R (S.gossip R F) (S.nodes R F)

end

end Topology

end OpenManet
