import OpenManet.Lib.Table
import OpenManet.Lib.Text
import Mathlib.Data.Int.Notation
import Mathlib.Data.List.Sort
import Mathlib.Data.Prod.Lex
import Mathlib.Order.BooleanAlgebra.Basic
/-!
# The mesh topology: inputs and aliases

`internal/openmanet/server/handlers/mesh_topology.go` merges what a node
knows of its mesh into one graph: the vis document, its own originator table,
the bat-hosts file and the neighbour records it heard by gossip. This module
has the inputs and the first passes, which settle the MAC every other MAC
stands for; `Gossip` has the classification and `Merge` the graph.

Metrics are floating point in the source. Here they are any type with the
comparisons and conversions used of them, so nothing rests on arithmetic.
`Runtime` holds what the language leaves open or to its tables: letter case,
the order in which a walk visits a map, the arrangement an unstable sort
leaves. A walk is told apart by its place in the code and by the key it is
about.
-/

namespace OpenManet

namespace Topology

/-- What is used of `float64`. -/
structure Metrics (M : Type) where
  zero : M
  eq : M → M → Bool
  lt : M → M → Bool
  le : M → M → Bool
  /-- `ParseMetric`. -/
  parse : String → M
  /-- A throughput in kbit/s, as Mbit/s. -/
  mbps : ℕ → M
  /-- `255/TQ`. -/
  inverseTQ : ℕ → M

/-! ## Inputs -/

/-- `VisNeighbor`. -/
structure VisNeighbor where
  router : String
  neighbor : String
  metric : String
deriving DecidableEq, Repr

/-- `VisNode`. -/
structure VisNode where
  primary : String
  secondary : List String
  neighbors : List VisNeighbor
deriving DecidableEq, Repr

/-- `VisDoc`. -/
structure VisDoc where
  vis : List VisNode
  algorithm : ℤ
deriving DecidableEq, Repr

/-- `OriginatorEntry`. -/
structure OriginatorEntry where
  origMAC : String
  origHostname : String
  nextHopMAC : String
  hardIfname : String
  hops : ℤ
deriving DecidableEq, Repr

/-- `OriginatorTopology`. -/
structure OriginatorTopology where
  selfMAC : String
  selfHostname : String
  algorithm : String
  originators : List OriginatorEntry
deriving DecidableEq, Repr

/-- `BatHosts`, as the list of its hosts: MAC and name. -/
structure BatHosts where
  hosts : List (String × String)
deriving DecidableEq, Repr

/-- A neighbour a publisher reports. -/
structure MeshNeighbor where
  mac : String
  hardIfname : String
  blos : Bool
  throughputKbps : ℕ
  tq : ℕ
deriving DecidableEq, Repr

/-- A route a publisher reports. -/
structure Originator where
  origMac : String
  nextHopMac : String
  hardIfname : String
deriving DecidableEq, Repr

/-- `MeshNeighbors`: the payload of a gossip record. `collectedAgo` is its
age in whole seconds, where it has a time. -/
structure MeshNeighbors where
  algorithm : ℤ
  neighbors : List MeshNeighbor
  originators : List Originator
  collectedAgo : Option ℤ
deriving DecidableEq, Repr

/-- `MeshNeighborsRecord`. -/
structure MeshNeighborsRecord where
  payload : Option MeshNeighbors
deriving DecidableEq, Repr

/-- `MeshNeighborsProvider`. -/
structure MeshNeighborsProvider where
  lookup : String → Option MeshNeighborsRecord
  lookupByHostname : String → Option MeshNeighborsRecord

/-! ## Outputs -/

/-- The segment labels. -/
inductive Segment where
  | segmentLocal
  | segmentRemote
deriving DecidableEq, Repr

/-- `MeshNode`. -/
structure MeshNode where
  mac : String
  hostname : String
  secondaryMacs : List String
  isSelf : Bool
  segment : Segment
  remoteGatewayMac : String
  hopsFromSelf : ℤ
  myHardIfname : String
  isGateway : Bool
  gossipStale : Bool
  gossipAgeSeconds : ℤ
deriving DecidableEq, Repr

/-- `MeshEdge`. -/
structure MeshEdge (M : Type) where
  fromMac : String
  toMac : String
  metric : M
  blos : Bool
  onMyPath : Bool
deriving DecidableEq, Repr

/-- `GossipCoverage`. -/
structure GossipCoverage where
  published : ℕ
  total : ℕ
deriving DecidableEq, Repr

/-- `MeshTopology`. -/
structure MeshTopology (M : Type) where
  selfMac : String
  selfHostname : String
  algorithm : String
  nodes : List MeshNode
  edges : List (MeshEdge M)
  gossipCoverage : GossipCoverage
deriving DecidableEq, Repr

/-- The order of the node list: self, then by name with the nameless last,
then by MAC. -/
def MeshNode.less (a b : MeshNode) : Bool :=
  if a.isSelf ≠ b.isSelf then a.isSelf
  else if a.hostname ≠ b.hostname then
    if a.hostname = "" then false
    else if b.hostname = "" then true
    else decide (a.hostname < b.hostname)
  else decide (a.mac < b.mac)

/-- The order of the edge list. -/
def MeshEdge.less {M : Type} (a b : MeshEdge M) : Bool :=
  if a.blos ≠ b.blos then !a.blos
  else if a.fromMac ≠ b.fromMac then decide (a.fromMac < b.fromMac)
  else decide (a.toMac < b.toMac)

/-! ## The runtime -/

/-- The walks over maps whose order can be seen. -/
inductive Site where
  | hostnameByPrimary
  | groups
  | rfAdjacency
  | rfNeighbors
  | components
  | adjacent
  | origByMac
  | blosLocal
  | blosLocalNeighbors
  | blosRemote
  | blosRemoteNeighbors
  | gossipRF
  | gossipRFNeighbors
  | gossipBLOS
  | gossipBLOSNeighbors
  | edges
deriving DecidableEq, Repr

/-- What the language leaves open. -/
structure Runtime (M : Type) where
  toLower : Lowering
  equalFold : String → String → Bool
  order : Site → String → List String → List String
  order_perm : ∀ site about keys, (order site about keys).Perm keys
  sortNodes : List MeshNode → List MeshNode
  sortNodes_perm : ∀ l, (sortNodes l).Perm l
  sortNodes_sorted : ∀ l, (sortNodes l).Pairwise fun a b => b.less a = false
  sortEdges : List (MeshEdge M) → List (MeshEdge M)
  sortEdges_perm : ∀ l, (sortEdges l).Perm l
  sortEdges_sorted : ∀ l, (sortEdges l).Pairwise fun a b => b.less a = false

/-! Both orders are orders of a key, so any sort will do for a runtime. -/

/-- What the node list is ordered by. -/
def MeshNode.key (n : MeshNode) : Bool ×ₗ Bool ×ₗ String ×ₗ String :=
  toLex (!n.isSelf, toLex (decide (n.hostname = ""), toLex (n.hostname, n.mac)))

theorem MeshNode.less_iff (a b : MeshNode) : a.less b = true ↔ a.key < b.key := by
  unfold MeshNode.less MeshNode.key
  simp only [Prod.Lex.toLex_lt_toLex, Bool.lt_iff, Bool.not_eq_eq_eq_not, Bool.not_true,
    Bool.not_false, decide_eq_false_iff_not, decide_eq_true_iff]
  grind

/-- What the edge list is ordered by. -/
def MeshEdge.key {M : Type} (e : MeshEdge M) : Bool ×ₗ String ×ₗ String :=
  toLex (e.blos, toLex (e.fromMac, e.toMac))

theorem MeshEdge.less_iff {M : Type} (a b : MeshEdge M) : a.less b = true ↔ a.key < b.key := by
  unfold MeshEdge.less MeshEdge.key
  simp only [Prod.Lex.toLex_lt_toLex, Bool.lt_iff]
  grind

/-- A sort by a comparison. -/
def sortBy {α : Type} (less : α → α → Bool) (l : List α) : List α :=
  l.insertionSort fun a b => less b a = false

theorem sortBy_sorted {α κ : Type} [LinearOrder κ] {less : α → α → Bool} (key : α → κ)
    (h : ∀ a b, less a b = true ↔ key a < key b) (l : List α) :
    (sortBy less l).Pairwise fun a b => less b a = false := by
  have hle : ∀ a b, less b a = false ↔ key a ≤ key b := by
    intro a b
    rw [← not_lt, ← h, Bool.not_eq_true]
  have : Std.Total fun a b => less b a = false := ⟨fun a b => by
    simp only [hle]
    exact le_total _ _⟩
  have : IsTrans α fun a b => less b a = false := ⟨fun a b c hab hbc => by
    rw [hle] at hab hbc ⊢
    exact hab.trans hbc⟩
  exact List.pairwise_insertionSort _ l

/-- A runtime that knows the letters `A` to `Z` and walks maps as they are
stored. -/
def Runtime.plain (M : Type) : Runtime M where
  toLower := .ascii
  equalFold a b := Lowering.ascii a == Lowering.ascii b
  order _ _ keys := keys
  order_perm _ _ keys := .refl keys
  sortNodes := sortBy MeshNode.less
  sortNodes_perm := List.perm_insertionSort _
  sortNodes_sorted := sortBy_sorted MeshNode.key MeshNode.less_iff
  sortEdges := sortBy MeshEdge.less
  sortEdges_perm := List.perm_insertionSort _
  sortEdges_sorted := sortBy_sorted MeshEdge.key MeshEdge.less_iff

/-- Metrics none of which is known: all are zero. -/
def Metrics.unknown : Metrics Unit where
  zero := ()
  eq _ _ := true
  lt _ _ := false
  le _ _ := true
  parse _ := ()
  mbps _ := ()
  inverseTQ _ := ()

/-- `blosIfname`. -/
def blosIfname : String := "vxlan0"

section

variable {M : Type} (R : Runtime M)

/-- A walk over a map. -/
def Runtime.range {α : Type} (site : Site) (about : String) (m : Table α) : List (String × α) :=
  m.range (R.order site about)

/-! ## Host names -/

/-- The rest of a name after an underscore is an interface. -/
def isIface : List Char → Bool
  | [] => false
  | c :: cs => (decide ('a' ≤ c) && decide (c ≤ 'z')) && cs.all fun d =>
      (decide ('a' ≤ d) && decide (d ≤ 'z')) || (decide ('0' ≤ d) && decide (d ≤ '9')) ||
        d == '_' || d == '-'

/-- What comes before the first match of `ifaceSuffixRe`. -/
def beforeIface : List Char → Option (List Char)
  | [] => none
  | c :: cs => if c == '_' && isIface cs then some [] else (beforeIface cs).map (c :: ·)

/-- `stripIfaceSuffix`. -/
def stripIfaceSuffix (full : String) : String :=
  match beforeIface full.toList with
  | none => full
  | some [] => full
  | some (c :: cs) => String.ofList (c :: cs)

/-- `GetHostByMAC`. -/
def BatHosts.getHostByMAC (batHosts : BatHosts) (mac : String) : String :=
  ((batHosts.hosts.find? fun host => R.equalFold host.1 mac).map (·.2)).getD ""

/-- `lookupOrigEntry`. -/
def lookupOrigEntry (v : VisNode) (origByMac : Table OriginatorEntry) : Option OriginatorEntry :=
  match origByMac.lookup v.primary with
  | some e => some e
  | none => v.secondary.findSome? fun s => origByMac.lookup s

/-- `lookupHostname`. -/
def lookupHostname (v : VisNode) (entry : Option OriginatorEntry) (batHosts : Option BatHosts) :
    String :=
  let origHostname := (entry.map (·.origHostname)).getD ""
  if origHostname ≠ "" then stripIfaceSuffix origHostname
  else
    match batHosts with
    | none => ""
    | some batHosts =>
      match (v.primary :: v.secondary).find? fun mac => batHosts.getHostByMAC R mac ≠ "" with
      | some mac => stripIfaceSuffix (batHosts.getHostByMAC R mac)
      | none => ""

/-! ## Aliases -/

/-- `secondaryOwners`. -/
def secondaryOwners (visNodes : List VisNode) : Table String :=
  visNodes.foldl (fun owners v => v.secondary.foldl (fun owners sec => owners.insert sec v.primary)
    owners) ∅

/-- `primaryByMac` of the vis document alone. -/
def visPrimaries (visNodes : List VisNode) : Table String :=
  visNodes.foldl (fun primaryByMac v =>
    let owner := (secondaryOwners visNodes).get v.primary
    let canonical := if owner ≠ "" then owner else v.primary
    v.secondary.foldl (fun primaryByMac sec => primaryByMac.insert sec canonical)
      (primaryByMac.insert v.primary canonical)) ∅

/-- A MAC that resolves to nothing stands for itself. -/
def ensurePrimary (primaryByMac : Table String) (mac : String) : Table String :=
  if mac ≠ "" ∧ primaryByMac.get mac = "" then primaryByMac.insert mac mac else primaryByMac

/-- `primaryByMac` before host names are folded. -/
def macPrimaries (visNodes : List VisNode) (origSnap : OriginatorTopology) : Table String :=
  origSnap.originators.foldl (fun primaryByMac o => ensurePrimary primaryByMac (R.toLower o.origMAC))
    (ensurePrimary (visPrimaries visNodes) (R.toLower origSnap.selfMAC))

/-- `origByMac`. -/
def originatorsByMac (origSnap : OriginatorTopology) : Table OriginatorEntry :=
  origSnap.originators.foldl (fun origByMac o => origByMac.insert (R.toLower o.origMAC) o) ∅

/-- `hostnameByPrimary` of `groupPrimariesByHostname`. -/
def groupingHostnames (visNodes : List VisNode) (primaryByMac : Table String)
    (origByMac : Table OriginatorEntry) (batHosts : Option BatHosts)
    (selfMAC selfHostname : String) : Table String :=
  let hostnameByPrimary := visNodes.foldl (fun hostnameByPrimary v =>
    if (primaryByMac.lookup v.primary).any (· ≠ v.primary) then hostnameByPrimary
    else
      let name := lookupHostname R v (lookupOrigEntry v origByMac) batHosts
      if name ≠ "" then hostnameByPrimary.insert v.primary name else hostnameByPrimary) ∅
  if selfMAC ≠ "" ∧ selfHostname ≠ "" then
    hostnameByPrimary.insert selfMAC (stripIfaceSuffix selfHostname)
  else hostnameByPrimary

/-- `groupPrimariesByHostname`. -/
def groupPrimariesByHostname (visNodes : List VisNode) (primaryByMac : Table String)
    (origByMac : Table OriginatorEntry) (batHosts : Option BatHosts)
    (selfMAC selfHostname : String) : Table (List String) :=
  let hostnameByPrimary :=
    groupingHostnames R visNodes primaryByMac origByMac batHosts selfMAC selfHostname
  (R.range .hostnameByPrimary "" hostnameByPrimary).foldl (fun groups (primary, hostname) =>
    groups.insert hostname ((groups.lookup hostname).getD [] ++ [primary])) ∅

/-- The loop of `pickCanonicalPrimary`. -/
def pickFrom (selfMAC : String) : String → List String → String
  | canonical, [] => canonical
  | canonical, p :: group =>
    if p = selfMAC then p
    else if canonical ≠ selfMAC ∧ p < canonical then pickFrom selfMAC p group
    else pickFrom selfMAC canonical group

/-- `pickCanonicalPrimary`. -/
def pickCanonicalPrimary (group : List String) (selfMAC : String) : String :=
  pickFrom selfMAC (group.headD "") group

/-- `applyCanonicalPrimary`. -/
def applyCanonicalPrimary (visNodes : List VisNode) (primaryByMac : Table String)
    (group : List String) (canonical : String) : Table String :=
  group.foldl (fun primaryByMac p =>
    if p = canonical then primaryByMac
    else
      (visNodes.filter (·.primary = p)).foldl (fun primaryByMac v =>
        v.secondary.foldl (fun primaryByMac sec => primaryByMac.insert sec canonical) primaryByMac)
        (primaryByMac.insert p canonical)) primaryByMac

/-- `foldHostnameAliases`. -/
def foldHostnameAliases (visNodes : List VisNode) (primaryByMac : Table String)
    (origByMac : Table OriginatorEntry) (batHosts : Option BatHosts)
    (selfMAC selfHostname : String) : Table String :=
  if visNodes.length < 2 then primaryByMac
  else
    let groups :=
      groupPrimariesByHostname R visNodes primaryByMac origByMac batHosts selfMAC selfHostname
    (R.range .groups "" groups).foldl (fun primaryByMac (_, group) =>
      if group.length < 2 then primaryByMac
      else applyCanonicalPrimary visNodes primaryByMac group (pickCanonicalPrimary group selfMAC))
      primaryByMac

/-- `resolvePrimary`. -/
def resolvePrimary (primaryByMac : Table String) (mac : String) : String :=
  if primaryByMac.get mac ≠ "" then primaryByMac.get mac else mac

/-- `buildHostnameIndex`. -/
def buildHostnameIndex (visNodes : List VisNode) (origByMac : Table OriginatorEntry)
    (batHosts : Option BatHosts) (primaryByMac : Table String) (selfMAC selfHostname : String) :
    Table String :=
  let out := visNodes.foldl (fun out v =>
    let canonical := resolvePrimary primaryByMac v.primary
    if canonical ∈ out then out
    else
      let name := lookupHostname R v (lookupOrigEntry v origByMac) batHosts
      if name ≠ "" then out.insert canonical name else out) ∅
  let selfPrimary := primaryByMac.get selfMAC
  if selfPrimary ≠ "" ∧ out.get selfPrimary = "" ∧ selfHostname ≠ "" then
    out.insert selfPrimary (stripIfaceSuffix selfHostname)
  else out

end

end Topology

end OpenManet
