import OpenManet.Topology.Model
/-!
# The mesh topology: gossip, segments and gateways

`mesh_topology_gossip.go`, and the classification in `mesh_topology.go`. A
gossip view keeps, for every primary a record was found for, the neighbours
that record claims by radio and by tunnel. Where any record was found the
radio claims of all of them make components, and the one with this node in it
is the local segment; for the rest, and where nothing was found, the
originator table decides.

Loops that only look for some entry of a map are written as such: what they
find does not depend on the order of the walk. The walk over a component
takes one step for each member; its fuel is the number of primaries claims
mention.
-/

namespace OpenManet

namespace Topology

/-- `gossipOriginator`. -/
structure GossipOriginator where
  orig : String
  nextHop : String
  ifname : String
deriving DecidableEq, Repr

/-- `gossipView`. -/
structure GossipView (M : Type) where
  rfByPrimary : Table (Table M)
  blosByPrimary : Table (Table M)
  staleByPrimary : Table Unit
  ageByPrimary : Table ℤ
  originatorsByPrimary : Table (List GossipOriginator)
  coverage : ℕ

/-- The view of no records. -/
def GossipView.empty {M : Type} : GossipView M := ⟨∅, ∅, ∅, ∅, ∅, 0⟩

/-- `ageMissing`. -/
def ageMissing : ℤ := -1

section

variable {M : Type} (R : Runtime M) (F : Metrics M)

/-! ## The view -/

/-- `gossipNeighborMetric`. -/
def gossipNeighborMetric (n : MeshNeighbor) (algorithm : ℤ) : M :=
  if algorithm = 15 then
    if 0 < n.throughputKbps then F.mbps n.throughputKbps else F.zero
  else if algorithm = 4 then
    if 0 < n.tq then F.inverseTQ n.tq else F.zero
  else F.zero

/-- A report of a neighbour: the first stands, unless it had no metric and
this one has. -/
def addReport (target : Table M) (nmac : String) (metric : M) : Table M :=
  match target.lookup nmac with
  | none => target.insert nmac metric
  | some existing =>
    if F.lt F.zero metric && F.eq existing F.zero then target.insert nmac metric else target

/-- `classifyGossipNeighbors`: the neighbours by radio and by tunnel. -/
def classifyGossipNeighbors (payload : MeshNeighbors) (primaryByMac : Table String) :
    Table M × Table M :=
  payload.neighbors.foldl (fun (rfSet, blosSet) n =>
    let nmac := resolvePrimary primaryByMac (R.toLower n.mac)
    let metric := gossipNeighborMetric F n payload.algorithm
    if nmac = "" then (rfSet, blosSet)
    else if n.blos ∨ n.hardIfname = blosIfname then (rfSet, addReport F blosSet nmac metric)
    else if n.hardIfname = "" then (rfSet, blosSet)
    else (addReport F rfSet nmac metric, blosSet)) (∅, ∅)

/-- `gossipRecordAge`, of a record with a payload. -/
def gossipRecordAge (payload : MeshNeighbors) : ℤ :=
  match payload.collectedAgo with
  | none => ageMissing
  | some seconds => if seconds < 0 then 0 else seconds.bmod (2 ^ 32)

/-- The payload found for a primary: by its MAC, or else by its host name. -/
def findPayload (provider : MeshNeighborsProvider) (hostnameByPrimary : Table String)
    (primary : String) : Option MeshNeighbors :=
  match (provider.lookup primary).bind (·.payload) with
  | some payload => some payload
  | none =>
    let hostname := hostnameByPrimary.get primary
    if hostname ≠ "" then (provider.lookupByHostname hostname).bind (·.payload) else none

/-- One vis entry's turn in `buildGossipView`. -/
def viewEntry (provider : MeshNeighborsProvider) (primaryByMac hostnameByPrimary : Table String)
    (view : GossipView M) (v : VisNode) : GossipView M :=
  let primary := resolvePrimary primaryByMac v.primary
  if primary = "" then view
  else
    match findPayload provider hostnameByPrimary primary with
    | none =>
      { view with
        staleByPrimary := view.staleByPrimary.insert primary ()
        ageByPrimary := view.ageByPrimary.insert primary ageMissing }
    | some payload =>
      let sets := classifyGossipNeighbors R F payload primaryByMac
      { view with
        coverage := view.coverage + 1
        ageByPrimary := view.ageByPrimary.insert primary (gossipRecordAge payload)
        rfByPrimary := view.rfByPrimary.insert primary sets.1
        blosByPrimary := view.blosByPrimary.insert primary sets.2
        originatorsByPrimary := view.originatorsByPrimary.insert primary
          (payload.originators.map fun o =>
            ⟨resolvePrimary primaryByMac (R.toLower o.origMac),
              resolvePrimary primaryByMac (R.toLower o.nextHopMac), o.hardIfname⟩) }

/-- `buildGossipView`. -/
def buildGossipView (provider : Option MeshNeighborsProvider) (visNodes : List VisNode)
    (primaryByMac hostnameByPrimary : Table String) : GossipView M :=
  match provider with
  | none => .empty
  | some provider =>
    visNodes.foldl (viewEntry R F provider primaryByMac hostnameByPrimary) .empty

/-- The neighbours by tunnel a primary claims. -/
def GossipView.blosOf (gossip : GossipView M) (primary : String) : Table M :=
  (gossip.blosByPrimary.lookup primary).getD ∅

/-- The neighbours by radio a primary claims. -/
def GossipView.rfOf (gossip : GossipView M) (primary : String) : Table M :=
  (gossip.rfByPrimary.lookup primary).getD ∅

/-! ## The originator table's word -/

/-- `resolveBLOSGateway`, with the steps left. -/
def resolveBLOSGateway (blosByPrimary : Table OriginatorEntry) (primaryByMac : Table String)
    (selfMAC : String) : ℕ → String → String
  | 0, cursor => cursor
  | steps + 1, cursor =>
    match blosByPrimary.lookup cursor with
    | none => cursor
    | some entry =>
      let nextMAC := R.toLower entry.nextHopMAC
      let nextPrimary := primaryByMac.get nextMAC
      if nextMAC = "" ∨ nextMAC = R.toLower entry.origMAC ∨ nextMAC = selfMAC then cursor
      else if nextPrimary = "" ∨ nextPrimary = cursor then cursor
      else resolveBLOSGateway blosByPrimary primaryByMac selfMAC steps nextPrimary

/-- `hopsMaxWalk`. -/
def hopsMaxWalk : ℕ := 16

/-- `ifsByPrimary`. -/
def ifsByPrimary (origs : List OriginatorEntry) (primaryByMac : Table String) :
    Table (List String) :=
  origs.foldl (fun ifs o =>
    let primary := primaryByMac.get (R.toLower o.origMAC)
    if primary = "" then ifs
    else ifs.insert primary ((ifs.lookup primary).getD [] ++ [o.hardIfname])) ∅

/-- `blosEntryByPrimary`. -/
def blosEntryByPrimary (origs : List OriginatorEntry) (primaryByMac : Table String) :
    Table OriginatorEntry :=
  origs.foldl (fun entries o =>
    let primary := primaryByMac.get (R.toLower o.origMAC)
    if primary = "" ∨ o.hardIfname ≠ blosIfname then entries else entries.insert primary o) ∅

/-- The segment of a primary by the interfaces it is reached over. -/
def segmentOfIfs (ifs : List String) : Segment :=
  if ifs.any fun name => name ≠ "" ∧ name ≠ blosIfname then .segmentLocal
  else if blosIfname ∈ ifs then .segmentRemote
  else .segmentLocal

/-- `classifyNodesHeuristic`: segments and gateways. Each primary's entries
are its own, so the order of the walk is not seen. -/
def classifyNodesHeuristic (origSnap : OriginatorTopology) (primaryByMac : Table String)
    (selfMAC : String) : Table Segment × Table String :=
  let ifsOf := ifsByPrimary R origSnap.originators primaryByMac
  let blosEntries := blosEntryByPrimary R origSnap.originators primaryByMac
  ifsOf.keys.foldl (fun (segments, gateways) primary =>
    let segment := segmentOfIfs ((ifsOf.lookup primary).getD [])
    let gw := resolveBLOSGateway R blosEntries primaryByMac selfMAC hopsMaxWalk primary
    (segments.insert primary segment,
      if segment = .segmentRemote ∧ gw ≠ "" then gateways.insert primary gw else gateways)) (∅, ∅)

/-! ## The components' word -/

/-- A link of the radio graph. -/
def addLink (adj : Table (Table Unit)) (a b : String) : Table (Table Unit) :=
  if a = b ∨ a = "" ∨ b = "" then adj
  else
    let adj := adj.insert a (((adj.lookup a).getD ∅).insert b ())
    adj.insert b (((adj.lookup b).getD ∅).insert a ())

/-- `buildRFAdjacency`. -/
def buildRFAdjacency (gossip : GossipView M) : Table (Table Unit) :=
  (R.range .rfAdjacency "" gossip.rfByPrimary).foldl (fun adj (primary, rfSet) =>
    (R.range .rfNeighbors primary rfSet).foldl (fun adj (nb, _) => addLink adj primary nb) adj) ∅

/-- The queue of `connectedComponents`: component ids, and the members in the
order they are taken. -/
def walkComponent (adj : Table (Table Unit)) (cid : ℕ) :
    ℕ → Table ℕ → List String → List String → Table ℕ × List String
  | 0, ids, members, _ => (ids, members)
  | _ + 1, ids, members, [] => (ids, members)
  | fuel + 1, ids, members, cur :: queue =>
    let next := (R.range .adjacent cur ((adj.lookup cur).getD ∅)).foldl
      (fun (ids, queue) (nb, _) =>
        if nb ∈ ids then (ids, queue) else (ids.insert nb cid, queue ++ [nb])) (ids, queue)
    walkComponent adj cid fuel next.1 (members ++ [cur]) next.2

/-- `start`: the component of a seed, unless it has one. -/
def startComponent (adj : Table (Table Unit)) (state : Table ℕ × List (List String))
    (seed : String) : Table ℕ × List (List String) :=
  if seed ∈ state.1 then state
  else
    let cid := state.2.length
    let walked := walkComponent R adj cid (adj.keys.length + 1) (state.1.insert seed cid) [] [seed]
    (walked.1, state.2 ++ [walked.2])

/-- `connectedComponents`. -/
def connectedComponents (adj : Table (Table Unit)) (gossip : GossipView M) :
    Table ℕ × List (List String) :=
  (R.range .components "" gossip.rfByPrimary).foldl
    (fun state (primary, _) => startComponent R adj state primary) (∅, [])

/-- `localComponentSet`. -/
def localComponentSet (componentMembers : List (List String)) (selfCid : Option ℕ)
    (selfPrimary : String) : List String :=
  let members := (selfCid.bind fun cid => componentMembers[cid]?).getD []
  if selfPrimary ≠ "" then members ++ [selfPrimary] else members

/-- One level of `reachableViaBLOSChain`: the primaries seen and those found
next, or nothing when a local one was found. -/
def chainLevel (localMembers : List String) (visited : List String)
    (origs : List GossipOriginator) : Option (List String × List String) :=
  origs.foldlM (fun (visited, next) o =>
    if o.ifname ≠ blosIfname then some (visited, next)
    else if o.orig = "" ∨ o.nextHop = "" then some (visited, next)
    else if o.nextHop ∈ localMembers then none
    else if o.nextHop ∈ visited then some (visited, next)
    else some (visited ++ [o.nextHop], next ++ [o.nextHop])) (visited, [])

/-- `reachableViaBLOSChain`, with the levels left. -/
def reachableViaBLOSChain (localMembers : List String) (gossip : GossipView M) :
    ℕ → List String → List String → Bool
  | 0, _, _ => false
  | _ + 1, _, [] => false
  | depth + 1, visited, cur :: frontier =>
    let origs := (cur :: frontier).flatMap fun p => (gossip.originatorsByPrimary.lookup p).getD []
    match chainLevel localMembers visited origs with
    | none => true
    | some (visited, next) => reachableViaBLOSChain localMembers gossip depth visited next

/-- `pickComponentGateway`. -/
def pickComponentGateway (members localMembers : List String) (gossip : GossipView M) : String :=
  let direct := members.find? fun m => (gossip.blosOf m).keys.any (· ∈ localMembers)
  let chained := members.find? fun m =>
    reachableViaBLOSChain localMembers gossip hopsMaxWalk [m] [m]
  let any := members.find? fun m => !(gossip.blosOf m).keys.isEmpty
  ((direct.or chained).or any).getD ""

/-- The entries of a table, and of a second one where the first has none. -/
def withFallback {α : Type} (m fallback : Table α) : Table α :=
  fallback.keys.foldl (fun m p =>
    match fallback.lookup p with
    | some v => if p ∈ m then m else m.insert p v
    | none => m) m

/-- `classifyNodesWithGossip`. -/
def classifyNodesWithGossip (origSnap : OriginatorTopology) (primaryByMac : Table String)
    (selfMAC selfPrimary : String) (gossip : GossipView M) : Table Segment × Table String :=
  let fallback := classifyNodesHeuristic R origSnap primaryByMac selfMAC
  if gossip.coverage = 0 then fallback
  else
    let components := connectedComponents R (buildRFAdjacency R gossip) gossip
    let selfCid := components.1.lookup selfPrimary
    let segments := gossip.rfByPrimary.keys.foldl (fun segments primary =>
      segments.insert primary
        (if selfCid.isSome ∧ components.1.lookup primary = selfCid then .segmentLocal
          else .segmentRemote)) ∅
    let segments :=
      if selfPrimary ≠ "" then segments.insert selfPrimary .segmentLocal else segments
    let localMembers := localComponentSet components.2 selfCid selfPrimary
    let gateways := components.2.zipIdx.foldl (fun gateways (members, cid) =>
      let gateway := pickComponentGateway members localMembers gossip
      if selfCid = some cid ∨ gateway = "" then gateways
      else members.foldl (fun gateways m => gateways.insert m gateway) gateways) ∅
    (withFallback segments fallback.1, withFallback gateways fallback.2)

/-- `segmentOrDefault`. -/
def segmentOrDefault (segmentByPrimary : Table Segment) (primary : String) : Segment :=
  if primary = "" then .segmentLocal else (segmentByPrimary.lookup primary).getD .segmentLocal

/-! ## Gateways -/

/-- `canonicalizeMacSet`. -/
def canonicalizeMacSet (macs : List String) (primaryByMac : Table String) : List String :=
  (macs.map (resolvePrimary primaryByMac)).filter (· ≠ "")

/-- `gossipBlosGateways`. -/
def gossipBlosGateways (gossip : GossipView M) (segmentByPrimary : Table Segment) : List String :=
  gossip.blosByPrimary.keys.filter fun primary =>
    segmentOrDefault segmentByPrimary primary = .segmentLocal ∧
      (gossip.blosOf primary).keys.any fun nb =>
        segmentOrDefault segmentByPrimary nb = .segmentRemote

/-- `consider` of `localBlosGatewayByRemote`: the gateway so far and the best
metric so far, by remote. -/
def consider (segmentByPrimary : Table Segment) (selfPrimary : String)
    (state : Table String × Table M) (near remote : String) (metric : M) :
    Table String × Table M :=
  let best := (state.2.lookup remote).getD F.zero
  if near = "" ∨ remote = "" ∨ near = selfPrimary then state
  else if segmentOrDefault segmentByPrimary near ≠ .segmentLocal then state
  else if segmentOrDefault segmentByPrimary remote ≠ .segmentRemote then state
  else if state.1.lookup remote = some near then
    if F.lt best metric then (state.1, state.2.insert remote metric) else state
  else if F.lt metric best then state
  else (state.1.insert remote near, state.2.insert remote metric)

/-- `localBlosGatewayByRemote`. -/
def localBlosGatewayByRemote (gossip : GossipView M) (segmentByPrimary : Table Segment)
    (gwMacs gossipGwMacs : List String) (selfPrimary : String) : Table String :=
  -- both ways round: what the near side published, then what the remote did
  let state := (R.range .blosLocal "" gossip.blosByPrimary).foldl (fun state (near, blosSet) =>
    (R.range .blosLocalNeighbors near blosSet).foldl (fun state (remote, metric) =>
      consider F segmentByPrimary selfPrimary state near remote metric) state) (∅, ∅)
  let state := (R.range .blosRemote "" gossip.blosByPrimary).foldl (fun state (remote, blosSet) =>
    (R.range .blosRemoteNeighbors remote blosSet).foldl (fun state (near, metric) =>
      consider F segmentByPrimary selfPrimary state near remote metric) state) state
  if gwMacs.isEmpty ∧ gossipGwMacs.isEmpty then state.1
  else
    state.1.keys.foldl (fun out remote =>
      let near := state.1.get remote
      if near ∈ gwMacs ∨ near ∈ gossipGwMacs then out else out.erase remote) state.1

end

end Topology

end OpenManet
